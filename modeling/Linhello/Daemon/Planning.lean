import Linhello.Daemon.Tiers
/-!
# What the policy decides

`plan_action` reads `policy.conf` once for each key. `exec_planAction` gives every
plan it can make in a state as a function of the settings of that state, the
tier of the bound hardware and the warmth of the session. What may be released
(`plan_within_envelope`), which key each operation obeys (`obeys_own_key_iff`)
and what `PolicyStatus` tells (`policy_status_honest_iff`) are read off it.
-/

namespace Linhello.Daemon

open Common Linhello.Core Effect Host Host.World Liveness Biometrics

variable {sealed : SealedEnvelope → Option Bytes} {flt : Faults} {w w' : World} {pr : Process}
  {user service : String} {peerIsRoot : Bool} {resp : Response}

/-! ## Settings -/

/-- The text of `policy.conf`; a file that is missing or not text has none. -/
def policyText (w : World) : String := (w.file (.root .policyConf)).join.getD ""

/-- The setting of a key in `policy.conf`. -/
def setting (w : World) (key : String) : Option String := kvLookup key (policyText w)

/-- The value a run can read for a key: its setting, unless the read fails. -/
def ReadsAs (flt : Faults) (w : World) (key : String) (v : Option String) : Prop :=
  v = setting w key ∨ flt.access = true ∧ v = none

def Reads (flt : Faults) (w : World) (settings : String → Option String) : Prop :=
  ∀ key, ReadsAs flt w key (settings key)

theorem reads_setting : Reads flt w (setting w) := fun _ => .inl rfl

theorem Reads.eq {settings : String → Option String} (h : Reads flt w settings)
    (hflt : flt.access = false) : settings = setting w := by
  funext key
  rcases h key with h | ⟨haccess, -⟩
  · exact h
  · rw [hflt] at haccess
    cases haccess

theorem setting_eq : setting w key = (w.file (.root .policyConf)).join.bind (kvLookup key) := by
  unfold setting policyText
  cases (w.file (.root .policyConf)).join <;> rfl

@[simp] theorem policyText_set (text : String) :
    policyText (w.set (.root .policyConf) (some text)) = text := by
  rw [policyText, file_set_self]
  rfl

theorem step_read_iff {p : Path} {r : Except IoError p.Data} :
    Step sealed flt w (.read p) r w' ↔
      w' = w ∧ ((∃ d, w.file p = some d ∧ r = .ok d) ∨
        (w.file p = none ∧ r = .error .notFound) ∨
        (flt.access = true ∧ ∃ text, r = .error (.other text))) := by
  unfold Step
  rw [and_comm]
  refine and_congr Iff.rfl ?_
  cases r with
  | ok d =>
      simp only [allows, ioAnswer, Bool.and_eq_true, decide_eq_true_eq]
      constructor
      · intro h
        exact .inl ⟨d, h.2, rfl⟩
      · rintro (⟨d', hfile, hd⟩ | ⟨-, hd⟩ | ⟨-, text, hd⟩)
        · obtain rfl := Except.ok.inj hd
          exact ⟨by rw [hfile, Option.isSome_some], hfile⟩
        · cases hd
        · cases hd
  | error e =>
      cases e with
      | notFound => simp [allows, ioAnswer]
      | other text => simp [allows, ioAnswer]

theorem exec_readKv_iff {key : String} {v : Option String} :
    Exec (Step sealed flt) (readKv key) w v w' ↔ w' = w ∧ ReadsAs flt w key v := by
  unfold readKv ReadsAs
  rw [exec_bind, setting_eq]
  constructor
  · rintro ⟨r, u, hread, hret⟩
    rw [exec_perform, step_read_iff] at hread
    obtain ⟨rfl, ⟨d, hfile, rfl⟩ | ⟨hfile, rfl⟩ | ⟨haccess, text, rfl⟩⟩ := hread
    · rw [hfile]
      cases d with
      | none => exact ⟨hret.2, .inl hret.1⟩
      | some text => exact ⟨hret.2, .inl hret.1⟩
    · rw [hfile]
      exact ⟨hret.2, .inl hret.1⟩
    · exact ⟨hret.2, .inr ⟨haccess, hret.1⟩⟩
  · rintro ⟨rfl, rfl | ⟨haccess, rfl⟩⟩
    · cases hfile : w'.file (.root .policyConf) with
      | none =>
          exact ⟨_, _, exec_perform.2 (step_read_iff.2 ⟨rfl, .inr (.inl ⟨hfile, rfl⟩)⟩), rfl, rfl⟩
      | some d =>
          refine ⟨_, _, exec_perform.2 (step_read_iff.2 ⟨rfl, .inl ⟨d, hfile, rfl⟩⟩), ?_⟩
          cases d <;> exact ⟨rfl, rfl⟩
    · exact ⟨_, _, exec_perform.2 (step_read_iff.2 ⟨rfl, .inr (.inr ⟨haccess, "", rfl⟩)⟩), rfl, rfl⟩

/-! ## Plans -/

/-- The tier of the bound hardware a run can see. -/
def SeesHardware (flt : Faults) (w : World) (user : String) (hardware : Tier) : Prop :=
  hardware = enrolledTier (w.file (.user user .cameraBinding)) ∨
    flt.access = true ∧ hardware = .convenience

/-- The hardware's tier under the `tier` setting. -/
def tierUnder (override : Option String) (hardware : Tier) : Tier :=
  match override with
  | some "convenience" => .convenience
  | some "secure" => .secure
  | _ => hardware

theorem tierUnder_of_ne {override : Option String} {hardware : Tier}
    (hconv : override ≠ some "convenience") (hsec : override ≠ some "secure") :
    tierUnder override hardware = hardware := by
  unfold tierUnder
  split
  · exact absurd rfl hconv
  · exact absurd rfl hsec
  · rfl

def requirement (settings : String → Option String) (key : String) (default : ModalityReq) :
    ModalityReq :=
  ((settings key).bind ModalityReq.parse).getD default

def policyFrom (settings : String → Option String) : Policy where
  screenUnlock := requirement settings "screen_unlock" Policy.default.screenUnlock
  login := requirement settings "login" Policy.default.login
  sudoReq := requirement settings "sudo" Policy.default.sudoReq
  polkit := requirement settings "polkit" Policy.default.polkit

/-- `method` names something other than a face. -/
def faceIsOff (settings : String → Option String) : Prop :=
  (settings "method").bind UnlockMethod.parse = some .fingerprint

instance (settings : String → Option String) : Decidable (faceIsOff settings) :=
  inferInstanceAs (Decidable (_ = _))

/-- The plan made from settings, hardware and warmth that have been read. -/
def planFrom (settings : String → Option String) (hardware : Tier) (warm : Bool)
    (service : String) (peerIsRoot : Bool) : Plan :=
  let tier := tierUnder (settings "tier") hardware
  { action := capAction (!decide (faceIsOff settings)) peerIsRoot
      (Biopolicy.decide (classify service warm) tier (policyFrom settings))
    tier := tier
    cls := classify service warm
    warm := warm }

theorem exec_userTier_iff {t : Tier} :
    Exec (Step sealed flt) (userTier user) w t w' ↔ w' = w ∧ SeesHardware flt w user t := by
  unfold userTier enrolledBinding SeesHardware
  rw [exec_bind]
  simp only [exec_bind, exec_perform, step_read_iff]
  constructor
  · rintro ⟨b, v, ⟨r, u, ⟨rfl, ⟨d, hfile, rfl⟩ | ⟨hfile, rfl⟩ | ⟨haccess, text, rfl⟩⟩, hb⟩, ht⟩
    · rw [hfile]
      cases d <;> (obtain ⟨rfl, rfl⟩ := hb; exact ⟨ht.2, .inl ht.1⟩)
    · obtain ⟨rfl, rfl⟩ := hb
      rw [hfile]
      exact ⟨ht.2, .inl ht.1⟩
    · obtain ⟨rfl, rfl⟩ := hb
      exact ⟨ht.2, .inr ⟨haccess, ht.1⟩⟩
  · rintro ⟨rfl, rfl | ⟨haccess, rfl⟩⟩
    · cases hfile : w'.file (.user user .cameraBinding) with
      | none => exact ⟨none, w', ⟨_, w', ⟨rfl, .inr (.inl ⟨rfl, rfl⟩)⟩, rfl, rfl⟩, rfl, rfl⟩
      | some d =>
          cases d with
          | value b => exact ⟨some b, w', ⟨_, w', ⟨rfl, .inl ⟨_, rfl, rfl⟩⟩, rfl, rfl⟩, rfl, rfl⟩
          | invalidUtf8 => exact ⟨none, w', ⟨_, w', ⟨rfl, .inl ⟨_, rfl, rfl⟩⟩, rfl, rfl⟩, rfl, rfl⟩
          | malformed msg =>
              exact ⟨none, w', ⟨_, w', ⟨rfl, .inl ⟨_, rfl, rfl⟩⟩, rfl, rfl⟩, rfl, rfl⟩
    · exact ⟨none, w', ⟨_, w', ⟨rfl, .inr (.inr ⟨haccess, "", rfl⟩)⟩, rfl, rfl⟩, rfl, rfl⟩

theorem exec_effectiveTier_iff {t : Tier} :
    Exec (Step sealed flt) (effectiveTier user) w t w' ↔
      w' = w ∧ ∃ override hardware, ReadsAs flt w "tier" override ∧
        SeesHardware flt w user hardware ∧ t = tierUnder override hardware := by
  unfold effectiveTier
  rw [exec_bind]
  simp only [exec_readKv_iff]
  constructor
  · rintro ⟨override, v, ⟨rfl, hread⟩, ht⟩
    split at ht
    · exact ⟨ht.2, _, _, hread, .inl rfl, ht.1⟩
    · exact ⟨ht.2, _, _, hread, .inl rfl, ht.1⟩
    · rename_i hconv hsec
      obtain ⟨rfl, hsees⟩ := exec_userTier_iff.1 ht
      exact ⟨rfl, override, t, hread, hsees, (tierUnder_of_ne hconv hsec).symm⟩
  · rintro ⟨rfl, override, hardware, hread, hsees, rfl⟩
    refine ⟨override, w', ⟨rfl, hread⟩, ?_⟩
    split
    · exact ⟨rfl, rfl⟩
    · exact ⟨rfl, rfl⟩
    · rename_i hconv hsec
      rw [tierUnder_of_ne hconv hsec]
      exact exec_userTier_iff.2 ⟨rfl, hsees⟩

/-- Nothing the daemon stores decides whether a session is warm. -/
theorem exec_sessionWarm_iff {warm : Bool} :
    Exec (Step sealed flt) (sessionWarm user) w warm w' ↔ w' = w := by
  constructor
  · intro h
    exact exec_quiet ((looks_sessionWarm (F := fun _ => True) user).imp fun _ => quiet_of_looks) h
  · rintro rfl
    cases warm with
    | false => exact ⟨none, w', ⟨rfl, rfl⟩, rfl, rfl⟩
    | true =>
        refine ⟨some 0, w', ⟨rfl, rfl⟩, some "STATE=active", w', ⟨rfl, rfl⟩, ?_, rfl⟩
        decide

/-- Separate reads of different keys make up one reading of the settings. -/
theorem reads_of_readsAs {tier unlock login sudoKey polkit method : Option String}
    (htier : ReadsAs flt w "tier" tier) (hunlock : ReadsAs flt w "screen_unlock" unlock)
    (hlogin : ReadsAs flt w "login" login) (hsudo : ReadsAs flt w "sudo" sudoKey)
    (hpolkit : ReadsAs flt w "polkit" polkit) (hmethod : ReadsAs flt w "method" method) :
    ∃ settings, Reads flt w settings ∧ settings "tier" = tier ∧
      settings "screen_unlock" = unlock ∧ settings "login" = login ∧ settings "sudo" = sudoKey ∧
      settings "polkit" = polkit ∧ settings "method" = method := by
  let settings : String → Option String := fun key =>
    if key = "tier" then tier else if key = "screen_unlock" then unlock
    else if key = "login" then login else if key = "sudo" then sudoKey
    else if key = "polkit" then polkit else if key = "method" then method
    else setting w key
  refine ⟨settings, ?_, by simp [settings], by simp [settings], by simp [settings],
    by simp [settings], by simp [settings], by simp [settings]⟩
  intro key
  simp only [settings]
  split_ifs with h₁ h₂ h₃ h₄ h₅ h₆
  · exact h₁ ▸ htier
  · exact h₂ ▸ hunlock
  · exact h₃ ▸ hlogin
  · exact h₄ ▸ hsudo
  · exact h₅ ▸ hpolkit
  · exact h₆ ▸ hmethod
  · exact .inl rfl

theorem exec_policyKey {key : String} {req : Option ModalityReq} :
    Exec (Step sealed flt) (policyKey key) w req w' ↔
      ∃ v, ReadsAs flt w key v ∧ req = v.bind ModalityReq.parse ∧ w' = w := by
  unfold policyKey
  simp only [exec_bind, exec_readKv_iff, exec_pure]
  constructor
  · rintro ⟨v, _, ⟨rfl, hv⟩, rfl, rfl⟩
    exact ⟨v, hv, rfl, rfl⟩
  · rintro ⟨v, hv, rfl, rfl⟩
    exact ⟨v, w', ⟨rfl, hv⟩, rfl, rfl⟩

theorem exec_faceIsActiveMethod {face : Bool} :
    Exec (Step sealed flt) faceIsActiveMethod w face w' ↔
      ∃ v, ReadsAs flt w "method" v ∧ face = (v.bind UnlockMethod.parse != some .fingerprint) ∧
        w' = w := by
  unfold faceIsActiveMethod
  simp only [exec_bind, exec_readKv_iff, exec_pure]
  constructor
  · rintro ⟨v, _, ⟨rfl, hv⟩, rfl, rfl⟩
    exact ⟨v, hv, rfl, rfl⟩
  · rintro ⟨v, hv, rfl, rfl⟩
    exact ⟨v, w', ⟨rfl, hv⟩, rfl, rfl⟩

theorem bne_fingerprint (settings : String → Option String) :
    ((settings "method").bind UnlockMethod.parse != some .fingerprint) =
      !decide (faceIsOff settings) := by
  by_cases hoff : (settings "method").bind UnlockMethod.parse = some .fingerprint
  · have hdec : decide (faceIsOff settings) = true := decide_eq_true hoff
    rw [hoff, hdec]
    rfl
  · have hdec : decide (faceIsOff settings) = false := decide_eq_false hoff
    rw [hdec, Bool.not_false, bne_iff_ne]
    exact hoff

/-- Every plan `plan_action` can make, and no other: each key is read once. -/
theorem exec_planAction {plan : Plan} :
    Exec (Step sealed flt) (planAction user service peerIsRoot) w plan w' ↔
      w' = w ∧ ∃ settings hardware warm, Reads flt w settings ∧ SeesHardware flt w user hardware ∧
        plan = planFrom settings hardware warm service peerIsRoot := by
  unfold planAction currentPolicy
  simp only [exec_bind, exec_sessionWarm_iff, exec_effectiveTier_iff, exec_policyKey,
    exec_faceIsActiveMethod, exec_pure]
  constructor
  · rintro ⟨warm, _, rfl, _, _, ⟨rfl, override, hardware, htier, hsees, rfl⟩, _, _,
      ⟨_, _, ⟨unlock, hunlock, rfl, rfl⟩, _, _, ⟨login, hlogin, rfl, rfl⟩,
        _, _, ⟨sudoKey, hsudo, rfl, rfl⟩, _, _, ⟨polkit, hpolkit, rfl, rfl⟩, rfl, rfl⟩,
      _, _, ⟨method, hmethod, rfl, rfl⟩, rfl, rfl⟩
    obtain ⟨settings, hreads, rfl, rfl, rfl, rfl, rfl, rfl⟩ :=
      reads_of_readsAs htier hunlock hlogin hsudo hpolkit hmethod
    refine ⟨rfl, settings, hardware, warm, hreads, hsees, ?_⟩
    rw [bne_fingerprint]
    rfl
  · rintro ⟨rfl, settings, hardware, warm, hreads, hsees, rfl⟩
    refine ⟨warm, w', rfl, _, w', ⟨rfl, settings "tier", hardware, hreads _, hsees, rfl⟩, _, w',
      ⟨_, w', ⟨settings "screen_unlock", hreads _, rfl, rfl⟩,
        _, w', ⟨settings "login", hreads _, rfl, rfl⟩,
        _, w', ⟨settings "sudo", hreads _, rfl, rfl⟩,
        _, w', ⟨settings "polkit", hreads _, rfl, rfl⟩, rfl, rfl⟩,
      _, w', ⟨settings "method", hreads _, rfl, rfl⟩, ?_, rfl⟩
    rw [bne_fingerprint]
    rfl

/-! ## The envelope of the decision -/

def putPolicy (w : World) (text : String) : World := w.set (.root .policyConf) (some text)

/-- The keys of `policy.conf` with the values their absence stands for. -/
def policyDefaults : List (String × String) :=
  [("tier", "auto"), ("screen_unlock", "rgb"), ("login", "ir"), ("sudo", "ir"), ("polkit", "ir"),
    ("method", "auto")]

/-- Whether a value of a key is one the daemon tells apart from its absence. -/
def isKnown (key value : String) : Bool :=
  if key = "tier" then value = "convenience" || value = "secure"
  else if key = "method" then (UnlockMethod.parse value).isSome
  else (ModalityReq.parse value).isSome

/-- What a plan must satisfy under the settings it was made from. -/
structure Enveloped (settings : String → Option String) (service : String) (peerIsRoot : Bool)
    (plan : Plan) : Prop where
  peer : plan.action = .unseal → peerIsRoot = true
  tier : plan.action = .unseal → plan.tier = .secure
  releases : plan.action = .unseal →
    classify service plan.warm = .login ∨ classify service plan.warm = .elevation
  notOff : plan.action = .unseal →
    ∃ req, (classify service plan.warm).unsealKey (policyFrom settings) = some req ∧ req ≠ .off
  face : plan.action = .unseal → ¬ faceIsOff settings
  verifies : plan.action = .verify → classify service plan.warm = .screenUnlock
  denied : service ∈ ["sshd", "remote"] ∨
    service ∉ ["sudo", "su", "su-l", "runuser", "polkit-1"] ∧ isGreeterOrUnlock service = false →
    plan.action = .deny

theorem eq_verify_of_capAction {faceActive : Bool} {action : Action}
    (h : capAction faceActive peerIsRoot action = .verify) : action = .verify := by
  cases faceActive <;> cases peerIsRoot <;> cases action <;> simp_all [capAction]

theorem capAction_deny {faceActive : Bool} : capAction faceActive peerIsRoot .deny = .deny := by
  cases faceActive <;> rfl

theorem unsealIfSecure_ne_verify {tier : Tier} {req : ModalityReq} :
    unsealIfSecure tier req ≠ .verify := by
  unfold unsealIfSecure
  split
  · intro h
    cases h
  · intro h
    cases h

theorem decide_eq_verify {cls : OperationClass} {tier : Tier} {policy : Policy}
    (h : Biopolicy.decide cls tier policy = .verify) : cls = .screenUnlock := by
  cases cls with
  | screenUnlock => rfl
  | login => exact absurd h unsealIfSecure_ne_verify
  | elevation => exact absurd h unsealIfSecure_ne_verify
  | remote => cases h
  | unknown => cases h

private theorem classify_of_denied {warm : Bool} (h : service ∈ ["sshd", "remote"] ∨
    service ∉ ["sudo", "su", "su-l", "runuser", "polkit-1"] ∧ isGreeterOrUnlock service = false) :
    classify service warm = .remote ∨ classify service warm = .unknown := by
  rcases h with h | ⟨helevation, hgreeter⟩
  · left
    rcases List.mem_pair.1 h with rfl | rfl <;> rfl
  · unfold classify
    rw [if_neg (by rwa [List.contains_iff_mem]), hgreeter]
    by_cases hremote : ["sshd", "remote"].contains service
    · exact .inl (if_pos hremote)
    · exact .inr ((if_neg hremote).trans (if_neg Bool.false_ne_true))

theorem planFrom_enveloped (settings : String → Option String) (hardware : Tier) (warm : Bool)
    (service : String) (peerIsRoot : Bool) :
    Enveloped settings service peerIsRoot
      (planFrom settings hardware warm service peerIsRoot) := by
  have hunseal : (planFrom settings hardware warm service peerIsRoot).action = .unseal →
      (tierUnder (settings "tier") hardware = .secure ∧
        ∃ req, (classify service warm).unsealKey (policyFrom settings) = some req ∧ req ≠ .off) ∧
      ¬ faceIsOff settings ∧ peerIsRoot = true := by
    intro h
    obtain ⟨hdecide, hface, hroot⟩ := eq_unseal_of_capAction h
    rw [Bool.not_eq_true', decide_eq_false_iff_not] at hface
    exact ⟨decide_eq_unseal_iff.1 hdecide, hface, hroot⟩
  constructor
  case peer => exact fun h => (hunseal h).2.2
  case tier => exact fun h => (hunseal h).1.1
  case releases =>
    intro h
    obtain ⟨⟨-, req, hreq, -⟩, -⟩ := hunseal h
    show classify service warm = .login ∨ classify service warm = .elevation
    cases hcls : classify service warm with
    | login => exact .inl rfl
    | elevation => exact .inr rfl
    | screenUnlock => rw [hcls] at hreq; cases hreq
    | remote => rw [hcls] at hreq; cases hreq
    | unknown => rw [hcls] at hreq; cases hreq
  case notOff => exact fun h => (hunseal h).1.2
  case face => exact fun h => (hunseal h).2.1
  case verifies => exact fun h => decide_eq_verify (eq_verify_of_capAction h)
  case denied =>
    intro h
    have hdeny : Biopolicy.decide (classify service warm) (tierUnder (settings "tier") hardware)
        (policyFrom settings) = .deny := by
      have hcls : classify service warm = .remote ∨ classify service warm = .unknown :=
        classify_of_denied h
      rcases hcls with hcls | hcls <;> rw [hcls] <;> rfl
    show capAction _ peerIsRoot (Biopolicy.decide _ _ _) = .deny
    rw [hdeny, capAction_deny]

/-! ### Defaults -/

theorem sets_default {entry : String × String} (h : entry ∈ policyDefaults) :
    Sets (entry.1 ++ "=" ++ entry.2) entry.1 entry.2 := by
  simp only [policyDefaults, List.mem_cons, List.not_mem_nil, or_false] at h
  rcases h with rfl | rfl | rfl | rfl | rfl | rfl <;>
    exact ⟨by decide, by decide, by decide, by decide, by decide, by decide, by decide, by decide⟩

/-- The settings after a line that sets one key is put in front of the file. -/
theorem setting_putPolicy {line k v : String} (h : Sets line k v) (w : World) :
    setting (putPolicy w (line ++ "\n" ++ policyText w)) =
      Function.update (setting w) k (some v) := by
  funext key
  rw [setting, putPolicy, policyText_set, h.kvLookup]
  by_cases hk : k = key
  · subst hk
    rw [if_pos rfl, Function.update_self]
  · rw [if_neg hk, Function.update_of_ne (Ne.symm hk)]
    rfl

theorem requirement_of_unknown {settings : String → Option String} {key : String}
    {default : ModalityReq} (hkey : key ≠ "tier" ∧ key ≠ "method")
    (h : ∀ v, settings key = some v → isKnown key v = false) :
    requirement settings key default = default := by
  unfold requirement
  cases hs : settings key with
  | none => rfl
  | some v =>
      have hv := h v hs
      rw [isKnown, if_neg hkey.1, if_neg hkey.2, Option.isSome_eq_false_iff,
        Option.isNone_iff_eq_none] at hv
      simp [hv]

theorem requirement_update_of_ne {settings : String → Option String} {key k : String}
    {v : Option String} {default : ModalityReq} (h : key ≠ k) :
    requirement (Function.update settings k v) key default = requirement settings key default := by
  rw [requirement, Function.update_of_ne h]
  rfl

theorem planFrom_congr {settings settings' : String → Option String} {hardware : Tier}
    (htier : tierUnder ( settings' "tier") hardware = tierUnder (settings "tier") hardware)
    (hpolicy : policyFrom settings' = policyFrom settings)
    (hface : faceIsOff settings' ↔ faceIsOff settings) (warm : Bool) (service : String)
    (peerIsRoot : Bool) :
    planFrom settings' hardware warm service peerIsRoot =
      planFrom settings hardware warm service peerIsRoot := by
  unfold planFrom
  rw [htier, hpolicy, decide_eq_decide.2 hface]

theorem planFrom_update {settings : String → Option String} {entry : String × String}
    (hentry : entry ∈ policyDefaults)
    (h : ∀ v, settings entry.1 = some v → isKnown entry.1 v = false) (hardware : Tier)
    (warm : Bool) (service : String) (peerIsRoot : Bool) :
    planFrom (Function.update settings entry.1 (some entry.2)) hardware warm service peerIsRoot =
      planFrom settings hardware warm service peerIsRoot := by
  obtain ⟨key, value⟩ := entry
  simp only at h ⊢
  have htier : key ≠ "tier" → ∀ v, Function.update settings key v "tier" = settings "tier" :=
    fun hne v => Function.update_of_ne (Ne.symm hne) _ _
  have hmethod : key ≠ "method" →
      (faceIsOff (Function.update settings key (some value)) ↔ faceIsOff settings) := by
    intro hne
    unfold faceIsOff
    rw [Function.update_of_ne (Ne.symm hne)]
  have hpolicy : key = "tier" ∨ key = "method" →
      policyFrom (Function.update settings key (some value)) = policyFrom settings := by
    rintro (rfl | rfl) <;> simp only [policyFrom] <;>
      rw [requirement_update_of_ne (by decide), requirement_update_of_ne (by decide),
        requirement_update_of_ne (by decide), requirement_update_of_ne (by decide)]
  simp only [policyDefaults, List.mem_cons, Prod.mk.injEq, List.not_mem_nil, or_false] at hentry
  rcases hentry with ⟨rfl, rfl⟩ | ⟨rfl, rfl⟩ | ⟨rfl, rfl⟩ | ⟨rfl, rfl⟩ | ⟨rfl, rfl⟩ | ⟨rfl, rfl⟩
  case inl =>
    refine planFrom_congr ?_ (hpolicy (.inl rfl)) (hmethod (by decide)) warm service peerIsRoot
    rw [Function.update_self]
    symm
    apply tierUnder_of_ne
    · intro hv
      exact absurd (h _ hv) (by decide)
    · intro hv
      exact absurd (h _ hv) (by decide)
  case inr.inr.inr.inr.inr =>
    refine planFrom_congr (by rw [htier (by decide)])
      (hpolicy (.inr rfl)) ?_ warm service peerIsRoot
    unfold faceIsOff
    rw [Function.update_self]
    refine iff_of_false (by decide) ?_
    intro hoff
    obtain ⟨v, hv, hparse⟩ := Option.bind_eq_some_iff.1 hoff
    have hknown := h v hv
    rw [isKnown, if_neg (by decide), if_pos rfl, hparse] at hknown
    cases hknown
  all_goals
    refine planFrom_congr (by rw [htier (by decide)]) ?_ (hmethod (by decide))
      warm service peerIsRoot
    have hreq : ∀ default, requirement settings _ default = default :=
      fun _ => requirement_of_unknown (by decide) h
    have hset : ∀ (key value : String) (default : ModalityReq),
        ModalityReq.parse value = some default →
        requirement (Function.update settings key (some value)) key default = default := by
      intro key value default hparse
      rw [requirement, Function.update_self, Option.bind_some, hparse, Option.getD_some]
    simp only [policyFrom]
    rw [hreq, hset _ _ _ (by decide), requirement_update_of_ne (by decide),
      requirement_update_of_ne (by decide), requirement_update_of_ne (by decide)]

/-- The plans `plan_action` can make in a state. -/
def Plans (sealed : SealedEnvelope → Option Bytes) (flt : Faults) (user service : String)
    (peerIsRoot : Bool) (w : World) (plan : Plan) : Prop :=
  ∃ w', Exec (Step sealed flt) (planAction user service peerIsRoot) w plan w'

theorem plans_iff {plan : Plan} :
    Plans sealed flt user service peerIsRoot w plan ↔
      ∃ settings hardware warm, Reads flt w settings ∧ SeesHardware flt w user hardware ∧
        plan = planFrom settings hardware warm service peerIsRoot := by
  constructor
  · rintro ⟨w', h⟩
    exact (exec_planAction.1 h).2
  · intro h
    exact ⟨w, exec_planAction.2 ⟨rfl, h⟩⟩

/-- The policy file does not hold what the hardware's tier is read from. -/
theorem seesHardware_putPolicy {text : String} {hardware : Tier} :
    SeesHardware flt (putPolicy w text) user hardware ↔ SeesHardware flt w user hardware := by
  unfold SeesHardware putPolicy
  rw [file_set_of_ne w _ (by simp)]

private theorem readsAs_unknown {key : String} {v : Option String} (hread : ReadsAs flt w key v)
    (h : ∀ v, setting w key = some v → isKnown key v = false) :
    ∀ u, v = some u → isKnown key u = false := by
  rcases hread with rfl | ⟨-, rfl⟩
  · exact h
  · intro u hu
    cases hu

/-- A key that is missing or has an unknown value acts as its default. -/
theorem plans_putPolicy_default {entry : String × String} (hentry : entry ∈ policyDefaults)
    (h : ∀ v, setting w entry.1 = some v → isKnown entry.1 v = false) (plan : Plan) :
    Plans sealed flt user service peerIsRoot
        (putPolicy w (entry.1 ++ "=" ++ entry.2 ++ "\n" ++ policyText w)) plan ↔
      Plans sealed flt user service peerIsRoot w plan := by
  have hset := setting_putPolicy (sets_default hentry) w
  have hself := congrFun hset entry.1
  rw [Function.update_self] at hself
  have hother : ∀ key, key ≠ entry.1 →
      setting (putPolicy w (entry.1 ++ "=" ++ entry.2 ++ "\n" ++ policyText w)) key =
        setting w key := by
    intro key hkey
    rw [hset, Function.update_of_ne hkey]
  simp only [plans_iff, seesHardware_putPolicy]
  constructor
  · rintro ⟨settings, hardware, warm, hreads, hsees, rfl⟩
    refine ⟨Function.update settings entry.1 (setting w entry.1), hardware, warm, ?_, hsees, ?_⟩
    · intro key
      by_cases hkey : key = entry.1
      · subst hkey
        rw [Function.update_self]
        exact .inl rfl
      · have hread := hreads key
        rw [ReadsAs, hother key hkey] at hread
        rwa [Function.update_of_ne hkey]
    · have hunknown : ∀ v, Function.update settings entry.1 (setting w entry.1) entry.1 = some v →
          isKnown entry.1 v = false := by
        rwa [Function.update_self]
      have hdefault := planFrom_update hentry hunknown hardware warm service peerIsRoot
      rw [Function.update_idem] at hdefault
      rw [← hdefault]
      -- the value read in front of the file is the default, or none at all
      rcases hreads entry.1 with hread | ⟨-, hread⟩
      · rw [hself] at hread
        rw [← hread, Function.update_eq_self]
      · refine (planFrom_update hentry (fun v hv => ?_) hardware warm service peerIsRoot).symm
        rw [hread] at hv
        cases hv
  · rintro ⟨settings, hardware, warm, hreads, hsees, rfl⟩
    refine ⟨Function.update settings entry.1 (some entry.2), hardware, warm, ?_, hsees,
      (planFrom_update hentry (readsAs_unknown (hreads _) h) hardware warm service
        peerIsRoot).symm⟩
    intro key
    by_cases hkey : key = entry.1
    · subst hkey
      rw [Function.update_self]
      exact .inl hself.symm
    · rw [Function.update_of_ne hkey, ReadsAs, hother key hkey]
      exact hreads key

/-- Whatever `policy.conf` holds, a plan releases the credential only to root, on
the secure tier, for a login or an elevation that is not switched off and while a
face is the method; and a key that is missing or unparsable acts as its default. -/
theorem plan_within_envelope (sealed : SealedEnvelope → Option Bytes) (flt : Faults)
    (user service : String) (peerIsRoot : Bool) (w : World) :
    (∀ plan, Plans sealed flt user service peerIsRoot w plan →
      (∃ w', Exec (Step sealed flt) (effectiveTier user) w plan.tier w') ∧
      ∃ settings, Reads flt w settings ∧ Enveloped settings service peerIsRoot plan) ∧
    ∀ entry ∈ policyDefaults, (∀ v, setting w entry.1 = some v → isKnown entry.1 v = false) →
      ∀ plan, Plans sealed flt user service peerIsRoot w plan ↔
        Plans sealed flt user service peerIsRoot
          (putPolicy w (entry.1 ++ "=" ++ entry.2 ++ "\n" ++ policyText w)) plan := by
  constructor
  · intro plan hplan
    obtain ⟨settings, hardware, warm, hreads, hsees, rfl⟩ := plans_iff.1 hplan
    have htier : Exec (Step sealed flt) (effectiveTier user) w
        (tierUnder (settings "tier") hardware) w :=
      exec_effectiveTier_iff.2 ⟨rfl, settings "tier", hardware, hreads "tier", hsees, rfl⟩
    exact ⟨⟨w, htier⟩, settings, hreads,
      planFrom_enveloped settings hardware warm service peerIsRoot⟩
  · intro entry hentry h plan
    exact (plans_putPolicy_default hentry h plan).symm

/-! ## Each operation and its key -/

def operationKeys : List String := ["screen_unlock", "login", "sudo", "polkit"]

/-- The key the configuration documents for the operation a service performs. -/
def operationKey (service : String) (warm : Bool) : Option String :=
  if ["sudo", "su", "su-l", "runuser"].contains service then some "sudo"
  else if service = "polkit-1" then some "polkit"
  else if isGreeterOrUnlock service then some (if warm then "screen_unlock" else "login")
  else none

/-- The actions planned for a service in a state while the session is (not) warm. -/
def PlansAction (sealed : SealedEnvelope → Option Bytes) (flt : Faults) (user service : String)
    (peerIsRoot warm : Bool) (w : World) (action : Action) : Prop :=
  ∃ plan, Plans sealed flt user service peerIsRoot w plan ∧ plan.warm = warm ∧
    plan.action = action

/-- Of the operation keys only the operation's own decides: switched off it denies,
and a file that differs in other operation keys leads to the same action. -/
structure ObeysOwnKey (sealed : SealedEnvelope → Option Bytes) (flt : Faults)
    (user service : String) (peerIsRoot warm : Bool) (w : World) : Prop where
  off : ∀ key text action, operationKey service warm = some key →
    (∀ k, k ≠ key → kvLookup k text = setting w k) →
    (kvLookup key text).bind ModalityReq.parse = some .off →
    PlansAction sealed flt user service peerIsRoot warm (putPolicy w text) action → action = .deny
  others : ∀ text action action',
    (∀ k, k ∉ operationKeys ∨ operationKey service warm = some k → kvLookup k text = setting w k) →
    PlansAction sealed flt user service peerIsRoot warm w action →
    PlansAction sealed flt user service peerIsRoot warm (putPolicy w text) action' →
    action' = action

/-- The action as a function of the state, when the files can be read. -/
def actionIn (user service : String) (peerIsRoot warm : Bool) (w : World) : Action :=
  (planFrom (setting w) (enrolledTier (w.file (.user user .cameraBinding))) warm service
    peerIsRoot).action

theorem plansAction_iff {warm : Bool} {action : Action} (hflt : flt.access = false) :
    PlansAction sealed flt user service peerIsRoot warm w action ↔
      action = actionIn user service peerIsRoot warm w := by
  unfold PlansAction actionIn
  simp only [plans_iff]
  constructor
  · rintro ⟨_, ⟨settings, hardware, warm', hreads, hsees, rfl⟩, rfl, rfl⟩
    obtain rfl := hreads.eq hflt
    rcases hsees with rfl | ⟨haccess, -⟩
    · rfl
    · rw [hflt] at haccess
      cases haccess
  · rintro rfl
    exact ⟨_, ⟨setting w, _, warm, reads_setting, .inl rfl, rfl⟩, rfl, rfl⟩

private theorem setting_putPolicy_eq (w : World) (text : String) :
    setting (putPolicy w text) = fun k => kvLookup k text := by
  funext k
  rw [setting, putPolicy, policyText_set]

theorem actionIn_putPolicy {warm : Bool} {text : String} :
    actionIn user service peerIsRoot warm (putPolicy w text) =
      (planFrom (fun k => kvLookup k text) (enrolledTier (w.file (.user user .cameraBinding))) warm
        service peerIsRoot).action := by
  rw [actionIn, setting_putPolicy_eq, putPolicy, file_set_of_ne w _ (by simp)]

/-- The one key of the policy that `decide` consults for a class. -/
def consultedKey : OperationClass → Option String
  | .screenUnlock => some "screen_unlock"
  | .login => some "login"
  | .elevation => some "sudo"
  | .remote | .unknown => none

/-- A plan depends on the tier, the method and the key its class consults. -/
theorem planFrom_action_congr {settings settings' : String → Option String} {hardware : Tier}
    {warm : Bool} (htier : settings' "tier" = settings "tier")
    (hmethod : settings' "method" = settings "method")
    (hkey : ∀ key, consultedKey (classify service warm) = some key → settings' key = settings key) :
    (planFrom settings' hardware warm service peerIsRoot).action =
      (planFrom settings hardware warm service peerIsRoot).action := by
  have hface : faceIsOff settings' ↔ faceIsOff settings := by
    unfold faceIsOff
    rw [hmethod]
  have hdecide : Biopolicy.decide (classify service warm) (tierUnder (settings "tier") hardware)
      (policyFrom settings') = Biopolicy.decide (classify service warm)
        (tierUnder (settings "tier") hardware) (policyFrom settings) := by
    revert hkey
    cases classify service warm with
    | screenUnlock =>
        intro hkey
        simp only [Biopolicy.decide, policyFrom, requirement, hkey _ rfl]
    | login =>
        intro hkey
        simp only [Biopolicy.decide, policyFrom, requirement, hkey _ rfl]
    | elevation =>
        intro hkey
        simp only [Biopolicy.decide, policyFrom, requirement, hkey _ rfl]
    | remote => exact fun _ => rfl
    | unknown => exact fun _ => rfl
  unfold planFrom
  simp only [htier, hdecide, decide_eq_decide.2 hface]

theorem planFrom_action_of_off {settings : String → Option String} {hardware : Tier} {warm : Bool}
    {key : String} (hkey : consultedKey (classify service warm) = some key)
    (hoff : (settings key).bind ModalityReq.parse = some .off) :
    (planFrom settings hardware warm service peerIsRoot).action = .deny := by
  have hdecide : Biopolicy.decide (classify service warm) (tierUnder (settings "tier") hardware)
      (policyFrom settings) = .deny := by
    revert hkey
    cases classify service warm with
    | screenUnlock =>
        intro hkey
        obtain rfl := Option.some.inj hkey
        simp only [Biopolicy.decide, policyFrom, requirement, hoff, Option.getD_some]
    | login =>
        intro hkey
        obtain rfl := Option.some.inj hkey
        simp [Biopolicy.decide, policyFrom, requirement, hoff, unsealIfSecure]
    | elevation =>
        intro hkey
        obtain rfl := Option.some.inj hkey
        simp [Biopolicy.decide, policyFrom, requirement, hoff, unsealIfSecure]
    | remote => exact fun _ => rfl
    | unknown => exact fun _ => rfl
  show capAction _ peerIsRoot (Biopolicy.decide _ _ _) = .deny
  rw [hdecide, capAction_deny]

/-- The consulted key is the operation's own, but for `polkit-1`. -/
theorem consultedKey_classify {warm : Bool} (h : service ≠ "polkit-1") :
    consultedKey (classify service warm) = operationKey service warm := by
  unfold operationKey
  by_cases hsudo : ["sudo", "su", "su-l", "runuser"].contains service = true
  · rw [if_pos hsudo]
    simp only [List.contains_iff_mem, List.mem_cons, List.not_mem_nil, or_false] at hsudo
    rcases hsudo with rfl | rfl | rfl | rfl <;> rfl
  · rw [if_neg hsudo, if_neg h]
    have helevation : ¬ ["sudo", "su", "su-l", "runuser", "polkit-1"].contains service = true := by
      simp only
        [List.contains_iff_mem, List.mem_cons, List.not_mem_nil, or_false, not_or] at hsudo ⊢
      exact ⟨hsudo.1, hsudo.2.1, hsudo.2.2.1, hsudo.2.2.2, h⟩
    unfold classify
    rw [if_neg helevation]
    by_cases hremote : ["sshd", "remote"].contains service = true
    · rw [if_pos hremote]
      simp only [List.contains_iff_mem, List.mem_cons, List.not_mem_nil, or_false] at hremote
      rcases hremote with rfl | rfl <;> rfl
    · rw [if_neg hremote]
      by_cases hgreeter : isGreeterOrUnlock service = true
      · rw [if_pos hgreeter, if_pos hgreeter]
        cases warm <;> rfl
      · rw [if_neg hgreeter, if_neg hgreeter]
        rfl

theorem tierUnder_setting :
    tierUnder (setting w "tier") (enrolledTier (w.file (.user user .cameraBinding))) =
      tierOf (w.file (.root .policyConf)) (w.file (.user user .cameraBinding)) := by
  unfold tierOf
  rw [← setting_eq]
  by_cases hconv : setting w "tier" = some "convenience"
  · rw [hconv]
    rfl
  · by_cases hsec : setting w "tier" = some "secure"
    · rw [hsec]
      rfl
    · rw [tierUnder_of_ne hconv hsec]
      simp only [if_neg hconv, if_neg hsec]

/-- An elevation is released exactly to root, on the secure tier, under a `sudo` key
that is not off and while a face is the method. -/
theorem planFrom_elevation {settings : String → Option String} {hardware : Tier} {warm : Bool}
    (hcls : classify service warm = .elevation) :
    (planFrom settings hardware warm service peerIsRoot).action =
      if tierUnder (settings "tier") hardware = .secure ∧
          requirement settings "sudo" Policy.default.sudoReq ≠ .off ∧ ¬ faceIsOff settings ∧
          peerIsRoot = true then .unseal else .deny := by
  have haction : (planFrom settings hardware warm service peerIsRoot).action =
      capAction (!decide (faceIsOff settings)) peerIsRoot
        (unsealIfSecure (tierUnder (settings "tier") hardware)
          (requirement settings "sudo" Policy.default.sudoReq)) := by
    simp only [planFrom, hcls]
    rfl
  rw [haction, unsealIfSecure]
  by_cases hsecure : tierUnder (settings "tier") hardware = .secure ∧
      requirement settings "sudo" Policy.default.sudoReq ≠ .off
  · rw [if_pos hsecure]
    by_cases hface : faceIsOff settings
    · rw [if_neg (fun h => h.2.2.1 hface), decide_eq_true hface]
      rfl
    · rw [decide_eq_false hface]
      cases peerIsRoot with
      | false => rw [if_neg (fun h => Bool.false_ne_true h.2.2.2)]; rfl
      | true => rw [if_pos ⟨hsecure.1, hsecure.2, hface, rfl⟩]; rfl
  · rw [if_neg hsecure, if_neg (fun h => hsecure ⟨h.1, h.2.1⟩), capAction_deny]

/-- `plan_action` lets each operation obey its own key, except that `polkit-1` obeys
`sudo`: the `polkit` key is harmless only where `polkit-1` is denied anyway. -/
theorem obeys_own_key_iff {warm : Bool} (hflt : flt.access = false) :
    ObeysOwnKey sealed flt user service peerIsRoot warm w ↔
      service ≠ "polkit-1" ∨
        tierOf (w.file (.root .policyConf)) (w.file (.user user .cameraBinding)) ≠ .secure ∨
        faceIsOff (setting w) ∨ peerIsRoot = false := by
  rw [← tierUnder_setting]
  constructor
  · intro hobeys
    by_contra hnot
    simp only [not_or, not_not, Bool.not_eq_false] at hnot
    obtain ⟨rfl, htier, hface, hroot⟩ := hnot
    -- the same file under both settings of `sudo`
    have hsame : ∀ {line v : String}, Sets line "sudo" v →
        actionIn user "polkit-1" peerIsRoot warm (putPolicy w (line ++ "\n" ++ policyText w)) =
          actionIn user "polkit-1" peerIsRoot warm w := by
      intro line v hsets
      refine hobeys.others (line ++ "\n" ++ policyText w) _ _ ?_ ((plansAction_iff hflt).2 rfl)
        ((plansAction_iff hflt).2 rfl)
      intro k hk
      rw [hsets.kvLookup, if_neg]
      · rfl
      · rintro rfl
        rcases hk with hk | hk
        · exact hk (by decide)
        · exact absurd hk (by cases warm <;> decide)
    have haction : ∀ {line v : String}, Sets line "sudo" v →
        actionIn user "polkit-1" peerIsRoot warm (putPolicy w (line ++ "\n" ++ policyText w)) =
          if ((ModalityReq.parse v).getD Policy.default.sudoReq)
            ≠ .off then .unseal else .deny := by
      intro line v hsets
      rw [actionIn, setting_putPolicy hsets, planFrom_elevation rfl, putPolicy,
        file_set_of_ne w _ (by simp)]
      refine if_congr ?_ rfl rfl
      have hmethod : Function.update (setting w) "sudo" (some v) "method" = setting w "method" :=
        Function.update_of_ne (by decide) _ _
      have hface' : ¬ faceIsOff (Function.update (setting w) "sudo" (some v)) := by
        unfold faceIsOff at hface ⊢
        rwa [hmethod]
      rw [requirement, Function.update_of_ne (by decide), Function.update_self, Option.bind_some]
      constructor
      · exact fun h => h.2.1
      · exact fun h => ⟨htier, h, hface', hroot⟩
    have hoff : Sets "sudo=off" "sudo" "off" :=
      ⟨by decide, by decide, by decide, by decide, by decide, by decide, by decide, by decide⟩
    have hir : Sets "sudo=ir" "sudo" "ir" :=
      ⟨by decide, by decide, by decide, by decide, by decide, by decide, by decide, by decide⟩
    have hclash := ((haction hoff).symm.trans (hsame hoff)).trans
      ((hsame hir).symm.trans (haction hir))
    exact absurd hclash (by decide)
  · intro hcond
    have htierKey : "tier" ∉ operationKeys := by decide
    have hmethodKey : "method" ∉ operationKeys := by decide
    by_cases hpolkit : service = "polkit-1"
    · subst hpolkit
      -- every file that agrees on the tier and the method denies
      have hdeny : ∀ settings : String → Option String, settings "tier" = setting w "tier" →
          settings "method" = setting w "method" →
          (planFrom settings (enrolledTier (w.file (.user user .cameraBinding))) warm "polkit-1"
            peerIsRoot).action = .deny := by
        intro settings htier hmethod
        rw [planFrom_elevation rfl, htier]
        refine if_neg ?_
        rintro ⟨hsecure, -, hface, hroot⟩
        rcases hcond with h | h | h | h
        · exact h rfl
        · exact h hsecure
        · exact hface (by unfold faceIsOff at h ⊢; rwa [hmethod])
        · rw [hroot] at h
          cases h
      constructor
      · intro key text action hkey hagree _ haction
        rw [(plansAction_iff hflt).1 haction, actionIn_putPolicy]
        have hne : "tier" ≠ key ∧ "method" ≠ key := by
          have hkey' : operationKey "polkit-1" warm = some "polkit" := by cases warm <;> rfl
          obtain rfl := Option.some.inj (hkey'.symm.trans hkey)
          decide
        exact hdeny _ (hagree "tier" hne.1) (hagree "method" hne.2)
      · intro text action action' hagree haction haction'
        rw [(plansAction_iff hflt).1 haction, (plansAction_iff hflt).1 haction', actionIn_putPolicy,
          actionIn, hdeny _ (hagree _ (.inl htierKey)) (hagree _ (.inl hmethodKey)),
          hdeny _ rfl rfl]
    · have hconsulted : consultedKey (classify service warm) = operationKey service warm :=
        consultedKey_classify hpolkit
      constructor
      · intro key text action hkey _ hoff haction
        rw [(plansAction_iff hflt).1 haction, actionIn_putPolicy]
        exact planFrom_action_of_off (hconsulted.trans hkey) hoff
      · intro text action action' hagree haction haction'
        rw [(plansAction_iff hflt).1 haction, (plansAction_iff hflt).1 haction', actionIn_putPolicy,
          actionIn]
        refine planFrom_action_congr (hagree _ (.inl htierKey)) (hagree _ (.inl hmethodKey)) ?_
        intro key hkey
        exact hagree key (.inr (hconsulted.symm.trans hkey))

theorem obeys_own_key_iff_sudo :
    ObeysOwnKey simulatedUnseal .none "alice" "sudo" true false secureOverrideWorld ↔
      ("sudo" : String) ≠ "polkit-1" ∨
        tierOf (secureOverrideWorld.file (.root .policyConf))
          (secureOverrideWorld.file (.user "alice" .cameraBinding)) ≠ .secure ∨
        faceIsOff (setting secureOverrideWorld) ∨ true = false :=
  obeys_own_key_iff rfl

/-- With `polkit=off` a root peer on the secure tier still gets the password for
`polkit-1`. -/
theorem not_obeys_own_key :
    ¬ ∀ (sealed : SealedEnvelope → Option Bytes) (flt : Faults) (user service : String)
      (peerIsRoot warm : Bool) (w : World), flt.access = false →
      ObeysOwnKey sealed flt user service peerIsRoot warm w := by
  intro hall
  have hobeys := hall simulatedUnseal .none "alice" "polkit-1" true false secureOverrideWorld rfl
  have hsets : Sets "polkit=off" "polkit" "off" :=
    ⟨by decide, by decide, by decide, by decide, by decide, by decide, by decide, by decide⟩
  have hdeny := hobeys.off "polkit" ("polkit=off" ++ "\n" ++ policyText secureOverrideWorld) .unseal
    rfl (fun k hk => by rw [hsets.kvLookup, if_neg (Ne.symm hk)]; rfl)
    (by rw [hsets.kvLookup, if_pos rfl]; decide) ((plansAction_iff rfl).2 (by decide +kernel))
  cases hdeny

/-! ## What `PolicyStatus` tells -/

/-- What `do_authenticate` does with a plan. -/
def carryOut (pr : Process) (user service : String) (plan : Plan) : Proc Response :=
  match plan.action with
  | .deny =>
      pure (.error ("face auth not permitted for '" ++ service ++ "' on the " ++
        plan.tier.asStr ++ " tier"))
  | .verify => doVerify pr user
  | .unseal => doUnsealPassword pr user

theorem doAuthenticate_eq : doAuthenticate pr user service peerIsRoot =
    planAction user service peerIsRoot >>= carryOut pr user service := rfl

/-- For every service of the row's class, whatever the warmth of the session, the
row names the action of the plan for a root peer, which is the one `Authenticate`
carries out. -/
structure TellsTruth (sealed : SealedEnvelope → Option Bytes) (flt : Faults) (user : String)
    (w : World) (row : OperationPolicy) (cls : OperationClass) : Prop where
  planned : ∀ service plan, Plans sealed flt user service true w plan →
    classify service plan.warm = cls → row.action = Action.label plan.action
  taken : ∀ pr service resp w', Exec (Step sealed flt)
    (doAuthenticate pr user service true) w resp w' →
    ∃ plan v, Exec (Step sealed flt) (planAction user service true) w plan v ∧
      Exec (Step sealed flt) (carryOut pr user service plan) v resp w' ∧
      (classify service plan.warm = cls → row.action = Action.label plan.action)

def rowClasses : List OperationClass := [.screenUnlock, .login, .elevation, .remote, .unknown]

theorem label_injective {a b : Action} (h : Action.label a = Action.label b) : a = b := by
  cases a <;> cases b <;> first | rfl | exact absurd h (by decide)

theorem tellsTruth_of_planned {row : OperationPolicy} {cls : OperationClass}
    (h : ∀ service plan, Plans sealed flt user service true w plan →
      classify service plan.warm = cls → row.action = Action.label plan.action) :
    TellsTruth sealed flt user w row cls where
  planned := h
  taken pr service resp w' hexec := by
    rw [doAuthenticate_eq] at hexec
    obtain ⟨plan, v, hplan, hcarry⟩ := exec_bind.1 hexec
    exact ⟨plan, v, hplan, hcarry, h service plan ⟨v, hplan⟩⟩

/-- The rows `do_policy_status` answers in a state. -/
def policyRows (user : String) (w : World) : List OperationPolicy :=
  let tier := tierOf (w.file (.root .policyConf)) (w.file (.user user .cameraBinding))
  let policy := policyFrom (setting w)
  [operationRow tier policy "Screen unlock" .screenUnlock,
    operationRow tier policy "Login (greeter)" .login,
    operationRow tier policy "sudo / su / polkit" .elevation,
    operationRow tier policy "ssh / remote" .remote,
    operationRow tier policy "unknown service" .unknown]

private theorem exec_currentPolicy {policy : Policy} (hflt : flt.access = false)
    (h : Exec (Step sealed flt) currentPolicy w policy w') :
    policy = policyFrom (setting w) ∧ w' = w := by
  have hread : ∀ {key v}, ReadsAs flt w key v → v = setting w key := by
    rintro key v (rfl | ⟨haccess, -⟩)
    · rfl
    · rw [hflt] at haccess
      cases haccess
  unfold currentPolicy at h
  simp only [exec_bind, exec_policyKey, exec_pure] at h
  obtain ⟨_, _, ⟨unlock, hunlock, rfl, rfl⟩, _, _, ⟨login, hlogin, rfl, rfl⟩,
    _, _, ⟨sudoKey, hsudo, rfl, rfl⟩, _, _, ⟨polkit, hpolkit, rfl, rfl⟩, rfl, rfl⟩ := h
  obtain rfl := hread hunlock
  obtain rfl := hread hlogin
  obtain rfl := hread hsudo
  obtain rfl := hread hpolkit
  exact ⟨rfl, rfl⟩

/-- The rows are a function of the state, whatever the cameras are doing. -/
theorem exec_doPolicyStatus (hflt : flt.access = false)
    (h : Exec (Step sealed flt) (doPolicyStatus user) w resp w') :
    ∃ report, resp = .policyStatus report ∧ report.ops = policyRows user w := by
  unfold doPolicyStatus at h
  simp only [exec_bind] at h
  obtain ⟨binding, v₀, hbinding, hardware, v₁, hhardware, tier, v₂, htier, policy, v₃, hpolicy,
    ready, v₄, -, rfl, -⟩ := h
  obtain rfl : v₀ = w := exec_quiet ((looks_enrolledBinding (F := fun _ => True) trivial).imp
    fun _ => quiet_of_looks) hbinding
  obtain ⟨rfl, -⟩ := exec_userTier_iff.1 hhardware
  obtain rfl := exec_effectiveTier hflt htier
  obtain ⟨rfl, -⟩ := exec_effectiveTier_iff.1 htier
  obtain ⟨rfl, rfl⟩ := exec_currentPolicy hflt hpolicy
  exact ⟨_, rfl, rfl⟩

theorem capAction_root {faceActive : Bool} {action : Action} :
    capAction faceActive true action = if faceActive then action else .deny := by
  cases faceActive <;> cases action <;> rfl

private theorem exists_classify (cls : OperationClass) :
    ∃ service warm, classify service warm = cls := by
  cases cls with
  | screenUnlock => exact ⟨"kde", true, rfl⟩
  | login => exact ⟨"kde", false, rfl⟩
  | elevation => exact ⟨"sudo", false, rfl⟩
  | remote => exact ⟨"sshd", false, rfl⟩
  | unknown => exact ⟨"", false, rfl⟩

/-- A row is right unless a method other than a face denies what it promises. -/
theorem tellsTruth_iff {operation : String} {cls : OperationClass} (hflt : flt.access = false) :
    TellsTruth sealed flt user w
        (operationRow (tierOf (w.file (.root .policyConf)) (w.file (.user user .cameraBinding)))
          (policyFrom (setting w)) operation cls) cls ↔
      ¬ faceIsOff (setting w) ∨
        Biopolicy.decide cls
          (tierOf (w.file (.root .policyConf)) (w.file (.user user .cameraBinding)))
          (policyFrom (setting w)) = .deny := by
  rw [← tierUnder_setting]
  have haction : ∀ service warm, classify service warm = cls →
      (planFrom (setting w) (enrolledTier (w.file (.user user .cameraBinding))) warm service
        true).action = if faceIsOff (setting w) then .deny else
          Biopolicy.decide cls
            (tierUnder (setting w "tier") (enrolledTier (w.file (.user user .cameraBinding))))
            (policyFrom (setting w)) := by
    rintro service warm rfl
    show capAction _ true _ = _
    rw [capAction_root]
    by_cases hface : faceIsOff (setting w)
    · rw [decide_eq_true hface, if_pos hface]
      rfl
    · rw [decide_eq_false hface, if_neg hface]
      rfl
  constructor
  · intro htruth
    by_cases hface : faceIsOff (setting w)
    · obtain ⟨service, warm, hcls⟩ := exists_classify cls
      have hrow := htruth.planned service _
        (plans_iff.2 ⟨setting w, _, warm, reads_setting, .inl rfl, rfl⟩) hcls
      rw [haction service warm hcls, if_pos hface] at hrow
      exact .inr (label_injective hrow)
    · exact .inl hface
  · intro hcond
    refine tellsTruth_of_planned ?_
    intro service plan hplan hcls
    obtain ⟨settings, hardware, warm, hreads, hsees, rfl⟩ := plans_iff.1 hplan
    obtain rfl := hreads.eq hflt
    have hhardware : hardware = enrolledTier (w.file (.user user .cameraBinding)) := by
      rcases hsees with h | ⟨haccess, -⟩
      · exact h
      · rw [hflt] at haccess
        cases haccess
    subst hhardware
    rw [haction service warm hcls]
    show Action.label _ = _
    rcases hcond with hface | hdeny
    · rw [if_neg hface]
    · rw [hdeny, ite_self]

/-- No class of the policy leads to a camera. -/
def NothingEngages (tier : Tier) (policy : Policy) : Prop :=
  (policy.screenUnlock = .off ∨ policy.screenUnlock = .ir ∧ tier = .convenience) ∧
    (tier = .convenience ∨ policy.login = .off ∧ policy.sudoReq = .off)

theorem unsealIfSecure_eq_deny {tier : Tier} {req : ModalityReq} :
    unsealIfSecure tier req = .deny ↔ tier = .convenience ∨ req = .off := by
  cases tier <;> cases req <;> decide

theorem decide_eq_deny_iff {tier : Tier} {policy : Policy} :
    (∀ cls ∈ rowClasses, Biopolicy.decide cls tier policy = .deny) ↔
      NothingEngages tier policy := by
  have hunlock : Biopolicy.decide .screenUnlock tier policy = .deny ↔
      policy.screenUnlock = .off ∨ policy.screenUnlock = .ir ∧ tier = .convenience := by
    cases h : policy.screenUnlock <;> cases tier <;> simp [Biopolicy.decide, h]
  have hlogin : Biopolicy.decide .login tier policy = .deny ↔ _ := unsealIfSecure_eq_deny
  have helevation : Biopolicy.decide .elevation tier policy = .deny ↔ _ := unsealIfSecure_eq_deny
  have hremote : Biopolicy.decide .remote tier policy = .deny := rfl
  have hunknown : Biopolicy.decide .unknown tier policy = .deny := rfl
  simp only [rowClasses, List.forall_mem_cons, hunlock, hlogin, helevation, hremote, hunknown,
    NothingEngages, or_and_left, List.not_mem_nil, false_implies, implies_true, and_true]

private theorem forall₂_policyRows {P : OperationPolicy → OperationClass → Prop}
    {D : OperationClass → Prop}
    {face : Prop}
    (h : ∀ operation cls, P (operationRow
      (tierOf (w.file (.root .policyConf)) (w.file (.user user .cameraBinding)))
      (policyFrom (setting w)) operation cls) cls ↔ face ∨ D cls) :
    List.Forall₂ P (policyRows user w) rowClasses ↔ face ∨ ∀ cls ∈ rowClasses, D cls := by
  simp only [policyRows, rowClasses, List.forall₂_cons, h, List.forall₂_nil_left_iff,
    List.forall_mem_cons]
  by_cases hface : face
  · simp [hface]
  · simp [hface]

/-- `PolicyStatus` is right in exactly the states in which a face is the unlock method
or no operation would have engaged the camera anyway. -/
theorem policy_status_honest_iff (hflt : flt.access = false)
    (h : Exec (Step sealed flt) (doPolicyStatus user) w resp w') :
    ∃ report, resp = .policyStatus report ∧
      (List.Forall₂ (TellsTruth sealed flt user w) report.ops rowClasses ↔
        ¬ faceIsOff (setting w) ∨
          NothingEngages (tierOf (w.file (.root .policyConf)) (w.file (.user user .cameraBinding)))
            (policyFrom (setting w))) := by
  obtain ⟨report, rfl, hops⟩ := exec_doPolicyStatus hflt h
  refine ⟨report, rfl, ?_⟩
  rw [hops, ← decide_eq_deny_iff]
  exact forall₂_policyRows fun operation cls => tellsTruth_iff hflt

/-- A user without an enrollment who has chosen the fingerprint reader. -/
def fingerprintWorld : World := emptyWorld.set (.root .policyConf) (some "method=fingerprint\n")

theorem exec_doPolicyStatus_fingerprint :
    ∃ resp w', Exec (Step simulatedUnseal .none) (doPolicyStatus "alice") fingerprintWorld resp
      w' := by
  have hrun : (simulatedScript.run simulatedUnseal .none 20 (doPolicyStatus "alice")
      fingerprintWorld).isSome = true := by
    decide +kernel
  obtain ⟨⟨resp, w'⟩, hrun⟩ := Option.isSome_iff_exists.1 hrun
  exact ⟨resp, w', exec_of_execute (fun _ _ _ _ _ => step_sound) hrun⟩

theorem policy_status_honest_iff_fingerprint :
    ∃ resp report, resp = Response.policyStatus report ∧
      (List.Forall₂ (TellsTruth simulatedUnseal .none "alice" fingerprintWorld) report.ops
          rowClasses ↔
        ¬ faceIsOff (setting fingerprintWorld) ∨
          NothingEngages (tierOf (fingerprintWorld.file (.root .policyConf))
            (fingerprintWorld.file (.user "alice" .cameraBinding)))
            (policyFrom (setting fingerprintWorld))) := by
  obtain ⟨resp, w', h⟩ := exec_doPolicyStatus_fingerprint
  obtain ⟨report, hreport⟩ := policy_status_honest_iff rfl h
  exact ⟨resp, report, hreport⟩

/-- With `method=fingerprint` the screen-unlock row still promises a match. -/
theorem not_policy_status_honest :
    ¬ ∀ (sealed : SealedEnvelope → Option Bytes) (flt : Faults) (user : String) (w w' : World)
      (report : PolicyStatusReport), flt.access = false →
      Exec (Step sealed flt) (doPolicyStatus user) w (.policyStatus report) w' →
      List.Forall₂ (TellsTruth sealed flt user w) report.ops rowClasses := by
  intro hall
  obtain ⟨resp, w', h⟩ := exec_doPolicyStatus_fingerprint
  obtain ⟨report, rfl, hops⟩ := exec_doPolicyStatus rfl h
  have htruth := hall _ _ _ _ _ report rfl h
  rw [hops, policyRows, rowClasses, List.forall₂_cons] at htruth
  rcases (tellsTruth_iff rfl).1 htruth.1 with hface | hdeny
  · exact hface (by decide +kernel)
  · exact absurd hdeny (by decide +kernel)

end Linhello.Daemon
