import Linhello.Common.Wire
/-!
# Responses on the socket

The response side of the wire: the records a response is made of, the variants, and the
fields an older daemon leaves out.
-/

namespace Linhello.Common.Wire

open JsonCodec

/-! ## Records -/

def securityLevelName : SecurityLevel → String
  | .full => "Full"
  | .medium => "Medium"
  | .basic => "Basic"

def securityLevel : JsonCodec SecurityLevel := variants [.full, .medium, .basic] securityLevelName

def bootModeName : BootMode → String
  | .uki => "Uki"
  | .grub => "Grub"
  | .unknown => "Unknown"

def bootMode : JsonCodec BootMode := variants [.uki, .grub, .unknown] bootModeName

def capabilityStatusName : CapabilityStatus → String
  | .ok => "ok"
  | .warn => "warn"
  | .missing => "missing"

def capabilityStatus : JsonCodec CapabilityStatus :=
  variants [.ok, .warn, .missing] capabilityStatusName

def capabilityCheckFields (check : CapabilityCheck) : List (String × JsonValue) :=
  [("name", string.write check.name),
   ("status", capabilityStatus.write check.status), ("detail", string.write check.detail),
   ("required", bool.write check.required)]

def capabilityCheck : JsonCodec CapabilityCheck where
  write check := .obj (capabilityCheckFields check)
  read v := do
    let entries ← fields ["name", "status", "detail", "required"] v
    let name ← string.required "name" entries
    let status ← capabilityStatus.required "status" entries
    let detail ← string.required "detail" entries
    let required ← bool.required "required" entries
    pure { name := name, status := status, detail := detail, required := required }

def capabilityReport : JsonCodec CapabilityReport where
  write report := .obj [("checks", capabilityCheck.list.write report.checks)]
  read v := do
    let entries ← fields ["checks"] v
    let checks ← capabilityCheck.list.required "checks" entries
    pure { checks := checks }

def profileInfoFields (info : ProfileInfo) : List (String × JsonValue) :=
  [("user", string.write info.user), ("name", string.option.write info.name),
   ("samples", usize.write info.samples), ("has_password", bool.write info.hasPassword)]

def profileInfo : JsonCodec ProfileInfo where
  write info := .obj (profileInfoFields info)
  read v := do
    let entries ← fields ["user", "name", "samples", "has_password"] v
    let user ← string.required "user" entries
    let name ← string.option.defaulted none "name" entries
    let samples ← usize.required "samples" entries
    let hasPassword ← bool.required "has_password" entries
    pure { user := user, name := name, samples := samples, hasPassword := hasPassword }

def operationPolicyFields (op : OperationPolicy) : List (String × JsonValue) :=
  [("operation", string.write op.operation), ("action", string.write op.action),
   ("effect", string.write op.effect)]

def operationPolicy : JsonCodec OperationPolicy where
  write op := .obj (operationPolicyFields op)
  read v := do
    let entries ← fields ["operation", "action", "effect"] v
    let operation ← string.required "operation" entries
    let action ← string.required "action" entries
    let effect ← string.required "effect" entries
    pure { operation := operation, action := action, effect := effect }

def fixed4 (c : JsonCodec ℚ) : JsonCodec (ℚ × ℚ × ℚ × ℚ) where
  write b := c.list.write [b.1, b.2.1, b.2.2.1, b.2.2.2]
  read v := (c.list.read v).bind fun
    | [x1, y1, x2, y2] => some (x1, y1, x2, y2)
    | _ => none

section Floats

variable (F : FloatText)

def identifyCandidateFields (found : IdentifyCandidate) : List (String × JsonValue) :=
  [("user", string.write found.user),
   ("name", string.option.write found.name), ("score", (float F).write found.score)]

def identifyCandidate : JsonCodec IdentifyCandidate where
  write found := .obj (identifyCandidateFields F found)
  read v := do
    let entries ← fields ["user", "name", "score"] v
    let user ← string.required "user" entries
    let name ← string.option.defaulted none "name" entries
    let score ← (float F).required "score" entries
    pure { user := user, name := name, score := score }

def positionReportFields (p : PositionReport) : List (String × JsonValue) :=
  [("face_count", u32.write p.faceCount), ("frame_w", u32.write p.frameW),
   ("frame_h", u32.write p.frameH), ("bbox", (fixed4 (finite F)).option.write p.bbox),
   ("face_frac", (finite F).option.write p.faceFrac),
   ("yaw_deg", (finite F).option.write p.yawDeg),
   ("pitch_deg", (finite F).option.write p.pitchDeg),
   ("brightness", (finite F).option.write p.brightness),
   ("sharpness", (finite F).option.write p.sharpness), ("quality", u8.write p.quality),
   ("ir_present", bool.write p.irPresent),
   ("ir_brightness", (finite F).option.write p.irBrightness),
   ("ir_face_bg", (finite F).option.write p.irFaceBg), ("low_light", bool.write p.lowLight),
   ("well_framed", bool.write p.wellFramed), ("guidance", string.write p.guidance)]

def positionReport : JsonCodec PositionReport where
  write p := .obj (positionReportFields F p)
  read v := do
    let entries ← fields ["face_count", "frame_w", "frame_h", "bbox", "face_frac", "yaw_deg",
      "pitch_deg", "brightness", "sharpness", "quality", "ir_present", "ir_brightness",
      "ir_face_bg", "low_light", "well_framed", "guidance"] v
    let faceCount ← u32.required "face_count" entries
    let frameW ← u32.required "frame_w" entries
    let frameH ← u32.required "frame_h" entries
    let bbox ← (fixed4 (finite F)).option.defaulted none "bbox" entries
    let faceFrac ← (finite F).option.defaulted none "face_frac" entries
    let yawDeg ← (finite F).option.defaulted none "yaw_deg" entries
    let pitchDeg ← (finite F).option.defaulted none "pitch_deg" entries
    let brightness ← (finite F).option.defaulted none "brightness" entries
    let sharpness ← (finite F).option.defaulted none "sharpness" entries
    let quality ← u8.required "quality" entries
    let irPresent ← bool.required "ir_present" entries
    let irBrightness ← (finite F).option.defaulted none "ir_brightness" entries
    let irFaceBg ← (finite F).option.defaulted none "ir_face_bg" entries
    let lowLight ← bool.required "low_light" entries
    let wellFramed ← bool.required "well_framed" entries
    let guidance ← string.required "guidance" entries
    pure { faceCount := faceCount, frameW := frameW, frameH := frameH, bbox := bbox,
           faceFrac := faceFrac, yawDeg := yawDeg, pitchDeg := pitchDeg,
           brightness := brightness, sharpness := sharpness, quality := quality,
           irPresent := irPresent, irBrightness := irBrightness, irFaceBg := irFaceBg,
           lowLight := lowLight, wellFramed := wellFramed, guidance := guidance }

def livenessSummaryFields (s : LivenessSummary) : List (String × JsonValue) :=
  [("decision", string.write s.decision),
   ("spoof_prob", (finite F).option.write s.spoofProb),
   ("ml_score", (finite F).option.write s.mlScore),
   ("device_score", (finite F).write s.deviceScore),
   ("device_name", string.option.write s.deviceName),
   ("device_driver", string.option.write s.deviceDriver),
   ("ir_score", (finite F).option.write s.irScore),
   ("ir_mean", (finite F).option.write s.irMean), ("ir_std", (finite F).option.write s.irStd),
   ("ir_highlight_frac", (finite F).option.write s.irHighlightFrac),
   ("ir_face_bg_ratio", (finite F).option.write s.irFaceBgRatio),
   ("ir_eye_glint", (finite F).option.write s.irEyeGlint),
   ("ir_depth_ratio", (finite F).option.write s.irDepthRatio),
   ("face_frac", (finite F).option.write s.faceFrac),
   ("yaw_deg", (finite F).option.write s.yawDeg),
   ("pitch_deg", (finite F).option.write s.pitchDeg), ("reason", string.option.write s.reason)]

def livenessSummary : JsonCodec LivenessSummary where
  write s := .obj (livenessSummaryFields F s)
  read v := do
    let entries ← fields ["decision", "spoof_prob", "ml_score", "device_score", "device_name",
      "device_driver", "ir_score", "ir_mean", "ir_std", "ir_highlight_frac", "ir_face_bg_ratio",
      "ir_eye_glint", "ir_depth_ratio", "face_frac", "yaw_deg", "pitch_deg", "reason"] v
    let decision ← string.required "decision" entries
    let spoofProb ← (finite F).option.defaulted none "spoof_prob" entries
    let mlScore ← (finite F).option.defaulted none "ml_score" entries
    let deviceScore ← (finite F).required "device_score" entries
    let deviceName ← string.option.defaulted none "device_name" entries
    let deviceDriver ← string.option.defaulted none "device_driver" entries
    let irScore ← (finite F).option.defaulted none "ir_score" entries
    let irMean ← (finite F).option.defaulted none "ir_mean" entries
    let irStd ← (finite F).option.defaulted none "ir_std" entries
    let irHighlightFrac ← (finite F).option.defaulted none "ir_highlight_frac" entries
    let irFaceBgRatio ← (finite F).option.defaulted none "ir_face_bg_ratio" entries
    let irEyeGlint ← (finite F).option.defaulted none "ir_eye_glint" entries
    let irDepthRatio ← (finite F).option.defaulted none "ir_depth_ratio" entries
    let faceFrac ← (finite F).option.defaulted none "face_frac" entries
    let yawDeg ← (finite F).option.defaulted none "yaw_deg" entries
    let pitchDeg ← (finite F).option.defaulted none "pitch_deg" entries
    let reason ← string.option.defaulted none "reason" entries
    pure { decision := decision, spoofProb := spoofProb, mlScore := mlScore,
           deviceScore := deviceScore, deviceName := deviceName, deviceDriver := deviceDriver,
           irScore := irScore, irMean := irMean, irStd := irStd,
           irHighlightFrac := irHighlightFrac, irFaceBgRatio := irFaceBgRatio,
           irEyeGlint := irEyeGlint, irDepthRatio := irDepthRatio, faceFrac := faceFrac,
           yawDeg := yawDeg, pitchDeg := pitchDeg, reason := reason }

/-! ## Variants -/

def responseKind : Response → String
  | .status _ _ _ _ => "status"
  | .enrolled _ => "enrolled"
  | .verified _ _ _ => "verified"
  | .unsealed _ => "unsealed"
  | .resealed _ => "resealed"
  | .passwordSealed => "password_sealed"
  | .passwordUnsealed _ => "password_unsealed"
  | .diagnosed _ _ _ _ _ => "diagnosed"
  | .livenessChecked _ => "liveness_checked"
  | .userEnvelopesResealed _ _ => "user_envelopes_resealed"
  | .capabilities _ => "capabilities"
  | .position _ => "position"
  | .profiles _ => "profiles"
  | .identified _ _ _ => "identified"
  | .profileNameSet => "profile_name_set"
  | .profileDeleted _ _ => "profile_deleted"
  | .recoverySaved => "recovery_saved"
  | .recoveryRestored => "recovery_restored"
  | .authPlan _ _ _ => "auth_plan"
  | .policyStatus _ => "policy_status"
  | .error _ => "error"

/-- `DEFAULT_MATCH_THRESHOLD`, for a daemon that does not send its own. -/
def defaultThreshold : ℚ := 60 / 100

def responseFields : Response → List (String × JsonValue)
  | .status level mode secureBoot loader =>
      [("security_level", securityLevel.write level), ("boot_mode", bootMode.write mode),
       ("secure_boot", bool.write secureBoot), ("loader", string.option.write loader)]
  | .enrolled samples => [("samples", usize.write samples)]
  | .verified isMatch score threshold =>
      [("matched", bool.write isMatch), ("score", (float F).write score),
       ("threshold", (finite F).write threshold)]
  | .unsealed secret | .passwordUnsealed secret => [("secret", secretBytes.write secret)]
  | .resealed bytes => [("bytes", usize.write bytes)]
  | .diagnosed present level tracked drift tpmError =>
      [("envelope_present", bool.write present), ("security_level", securityLevel.write level),
       ("tracked_pcrs", u32.list.write tracked), ("pcr_drift", u32.list.option.write drift),
       ("tpm_error", string.option.write tpmError)]
  | .livenessChecked summary => [("summary", (livenessSummary F).write summary)]
  | .userEnvelopesResealed password templateKey =>
      [("password", bool.write password), ("template_key", bool.write templateKey)]
  | .capabilities report => [("report", capabilityReport.write report)]
  | .position report => [("report", (positionReport F).write report)]
  | .profiles profiles => [("profiles", profileInfo.list.write profiles)]
  | .identified best threshold candidates =>
      [("best", (identifyCandidate F).option.write best),
       ("threshold", (finite F).write threshold),
       ("candidates", (identifyCandidate F).list.write candidates)]
  | .profileDeleted user samples =>
      [("user", string.write user), ("samples", usize.write samples)]
  | .authPlan engage action notice =>
      [("engage", bool.write engage), ("action", string.write action),
       ("camera_notice", string.option.write notice)]
  | .policyStatus report =>
      [("tier", string.write report.tier), ("secure", bool.write report.secure),
       ("hardware_tier", string.write report.hardwareTier),
       ("overridden", bool.write report.overridden), ("enrolled", bool.write report.enrolled),
       ("hardware_ready", bool.write report.hardwareReady),
       ("hardware_note", string.write report.hardwareNote),
       ("ops", operationPolicy.list.write report.ops)]
  | .error message => [("message", string.write message)]
  | .passwordSealed | .profileNameSet | .recoverySaved | .recoveryRestored => []

/-- The fields an older daemon leaves out, with what a client takes for them. -/
def responseDefaults : Response → List (String × JsonValue)
  | .status _ _ _ _ => [("loader", .null)]
  | .verified _ _ _ => [("threshold", (finite F).write defaultThreshold)]
  | .diagnosed _ _ _ _ _ => [("pcr_drift", .null), ("tpm_error", .null)]
  | .identified _ _ _ => [("best", .null)]
  | .authPlan _ _ _ => [("camera_notice", .null)]
  | .policyStatus _ => [("hardware_ready", .bool true), ("hardware_note", .str "")]
  | _ => []

/-! ## Readers -/

def statusVariant : Variant Response where
  name := "status"
  read := fieldsRest ["security_level", "boot_mode", "secure_boot", "loader"] fun entries => do
    let level ← securityLevel.required "security_level" entries
    let mode ← bootMode.required "boot_mode" entries
    let secureBoot ← bool.required "secure_boot" entries
    let loader ← string.option.defaulted none "loader" entries
    pure (.status level mode secureBoot loader)

def verifiedVariant : Variant Response where
  name := "verified"
  read := fieldsRest ["matched", "score", "threshold"] fun entries => do
    let isMatch ← bool.required "matched" entries
    let score ← (float F).required "score" entries
    let threshold ← (finite F).defaulted defaultThreshold "threshold" entries
    pure (.verified isMatch score threshold)

def diagnosedVariant : Variant Response where
  name := "diagnosed"
  read := fieldsRest ["envelope_present", "security_level", "tracked_pcrs", "pcr_drift",
      "tpm_error"] fun entries => do
    let present ← bool.required "envelope_present" entries
    let level ← securityLevel.required "security_level" entries
    let tracked ← u32.list.required "tracked_pcrs" entries
    let drift ← u32.list.option.defaulted none "pcr_drift" entries
    let tpmError ← string.option.defaulted none "tpm_error" entries
    pure (.diagnosed present level tracked drift tpmError)

def userEnvelopesResealedVariant : Variant Response where
  name := "user_envelopes_resealed"
  read := fieldsRest ["password", "template_key"] fun entries => do
    let password ← bool.required "password" entries
    let templateKey ← bool.required "template_key" entries
    pure (.userEnvelopesResealed password templateKey)

def identifiedVariant : Variant Response where
  name := "identified"
  read := fieldsRest ["best", "threshold", "candidates"] fun entries => do
    let best ← (identifyCandidate F).option.defaulted none "best" entries
    let threshold ← (finite F).required "threshold" entries
    let candidates ← (identifyCandidate F).list.required "candidates" entries
    pure (.identified best threshold candidates)

def profileDeletedVariant : Variant Response where
  name := "profile_deleted"
  read := fieldsRest ["user", "samples"] fun entries => do
    let user ← string.required "user" entries
    let samples ← usize.required "samples" entries
    pure (.profileDeleted user samples)

def authPlanVariant : Variant Response where
  name := "auth_plan"
  read := fieldsRest ["engage", "action", "camera_notice"] fun entries => do
    let engage ← bool.required "engage" entries
    let action ← string.required "action" entries
    let notice ← string.option.defaulted none "camera_notice" entries
    pure (.authPlan engage action notice)

def policyStatusVariant : Variant Response where
  name := "policy_status"
  read := fieldsRest ["tier", "secure", "hardware_tier", "overridden", "enrolled",
      "hardware_ready", "hardware_note", "ops"] fun entries => do
    let tier ← string.required "tier" entries
    let secure ← bool.required "secure" entries
    let hardwareTier ← string.required "hardware_tier" entries
    let overridden ← bool.required "overridden" entries
    let enrolled ← bool.required "enrolled" entries
    let hardwareReady ← bool.defaulted true "hardware_ready" entries
    let hardwareNote ← string.defaulted "" "hardware_note" entries
    let ops ← operationPolicy.list.required "ops" entries
    pure (.policyStatus { tier := tier, secure := secure, hardwareTier := hardwareTier,
                          overridden := overridden, enrolled := enrolled,
                          hardwareReady := hardwareReady, hardwareNote := hardwareNote,
                          ops := ops })

def oneField {α : Type} (name field : String) (c : JsonCodec α) (make : α → Response) :
    Variant Response where
  name := name
  read := fieldsRest [field] fun entries => (c.required field entries).map make

def responseVariants : List (Variant Response) :=
  [statusVariant, oneField "enrolled" "samples" usize .enrolled, verifiedVariant F,
   oneField "unsealed" "secret" secretBytes .unsealed,
   oneField "resealed" "bytes" usize .resealed, ⟨"password_sealed", emptyRest .passwordSealed⟩,
   oneField "password_unsealed" "secret" secretBytes .passwordUnsealed, diagnosedVariant,
   oneField "liveness_checked" "summary" (livenessSummary F) .livenessChecked,
   userEnvelopesResealedVariant, oneField "capabilities" "report" capabilityReport .capabilities,
   oneField "position" "report" (positionReport F) .position,
   oneField "profiles" "profiles" profileInfo.list .profiles, identifiedVariant F,
   ⟨"profile_name_set", emptyRest .profileNameSet⟩, profileDeletedVariant,
   ⟨"recovery_saved", emptyRest .recoverySaved⟩,
   ⟨"recovery_restored", emptyRest .recoveryRestored⟩, authPlanVariant, policyStatusVariant,
   oneField "error" "message" string .error]

def response : JsonCodec Response where
  write r := .obj (("kind", .str (responseKind r)) :: responseFields F r)
  read := readTagged "kind" (responseVariants F)

end Floats

/-! ## Records read back -/

theorem readsBack_securityLevel (level : SecurityLevel) : securityLevel.ReadsBack level := by
  apply readsBack_variants
  · cases level <;> decide
  · intro other _ hname
    revert hname
    cases level <;> cases other <;> decide

theorem readsBack_bootMode (mode : BootMode) : bootMode.ReadsBack mode := by
  apply readsBack_variants
  · cases mode <;> decide
  · intro other _ hname
    revert hname
    cases mode <;> cases other <;> decide

theorem readsBack_capabilityStatus (status : CapabilityStatus) :
    capabilityStatus.ReadsBack status := by
  apply readsBack_variants
  · cases status <;> decide
  · intro other _ hname
    revert hname
    cases status <;> cases other <;> decide

theorem readsBack_text (o : Option String) : string.option.ReadsBack o :=
  readsBack_option string_ne_null fun s _ => readsBack_string s

private theorem readsBack_capabilityCheck (check : CapabilityCheck) :
    capabilityCheck.ReadsBack check := by
  have hname : string.required "name" (capabilityCheckFields check) = some check.name :=
    required_of_once (by simp [once, capabilityCheckFields]) (readsBack_string check.name)
  have hstatus : capabilityStatus.required "status" (capabilityCheckFields check) =
      some check.status :=
    required_of_once (by simp [once, capabilityCheckFields])
      (readsBack_capabilityStatus check.status)
  have hdetail : string.required "detail" (capabilityCheckFields check) = some check.detail :=
    required_of_once (by simp [once, capabilityCheckFields]) (readsBack_string check.detail)
  have hrequired : bool.required "required" (capabilityCheckFields check) = some check.required :=
    required_of_once (by simp [once, capabilityCheckFields]) (readsBack_bool check.required)
  unfold ReadsBack capabilityCheck
  exact read_step rfl <| read_step hname <| read_step hstatus <| read_step hdetail <|
    read_step hrequired <| rfl

theorem readsBack_capabilityReport (report : CapabilityReport) :
    capabilityReport.ReadsBack report := by
  have hchecks : capabilityCheck.list.required "checks"
      [("checks", capabilityCheck.list.write report.checks)] = some report.checks :=
    required_of_once (by simp [once])
      (readsBack_list fun check _ => readsBack_capabilityCheck check)
  unfold ReadsBack capabilityReport
  exact read_step rfl <| read_step hchecks <| rfl

theorem readsBack_profileInfo {info : ProfileInfo} (h : info.samples < 2 ^ 64) :
    profileInfo.ReadsBack info := by
  have huser : string.required "user" (profileInfoFields info) = some info.user :=
    required_of_once (by simp [once, profileInfoFields]) (readsBack_string info.user)
  have hname : string.option.defaulted none "name" (profileInfoFields info) = some info.name :=
    defaulted_of_once (by simp [once, profileInfoFields]) (readsBack_text info.name)
  have hsamples : usize.required "samples" (profileInfoFields info) = some info.samples :=
    required_of_once (by simp [once, profileInfoFields]) (readsBack_natBelow h)
  have hhasPassword : bool.required "has_password" (profileInfoFields info) =
      some info.hasPassword :=
    required_of_once (by simp [once, profileInfoFields]) (readsBack_bool info.hasPassword)
  unfold ReadsBack profileInfo
  exact read_step rfl <| read_step huser <| read_step hname <| read_step hsamples <|
    read_step hhasPassword <| rfl

theorem readsBack_operationPolicy (op : OperationPolicy) : operationPolicy.ReadsBack op := by
  have hoperation : string.required "operation" (operationPolicyFields op) = some op.operation :=
    required_of_once (by simp [once, operationPolicyFields]) (readsBack_string op.operation)
  have haction : string.required "action" (operationPolicyFields op) = some op.action :=
    required_of_once (by simp [once, operationPolicyFields]) (readsBack_string op.action)
  have heffect : string.required "effect" (operationPolicyFields op) = some op.effect :=
    required_of_once (by simp [once, operationPolicyFields]) (readsBack_string op.effect)
  unfold ReadsBack operationPolicy
  exact read_step rfl <| read_step hoperation <| read_step haction <| read_step heffect <| rfl

section Numbers

variable {F : FloatText}

theorem readsBack_identifyCandidate {found : IdentifyCandidate}
    (h : (float F).ReadsBack found.score) : (identifyCandidate F).ReadsBack found := by
  have huser : string.required "user" (identifyCandidateFields F found) = some found.user :=
    required_of_once (by simp [once, identifyCandidateFields]) (readsBack_string found.user)
  have hname : string.option.defaulted none "name" (identifyCandidateFields F found) =
      some found.name :=
    defaulted_of_once (by simp [once, identifyCandidateFields]) (readsBack_text found.name)
  have hscore : (float F).required "score" (identifyCandidateFields F found) = some found.score :=
    required_of_once (by simp [once, identifyCandidateFields]) (h)
  unfold ReadsBack identifyCandidate
  exact read_step rfl <| read_step huser <| read_step hname <| read_step hscore <| rfl

def positionNumbers (p : PositionReport) : List (Option ℚ) :=
  [p.faceFrac, p.yawDeg, p.pitchDeg, p.brightness, p.sharpness, p.irBrightness, p.irFaceBg]

def PositionFits (p : PositionReport) : Prop :=
  p.faceCount < 2 ^ 32 ∧ p.frameW < 2 ^ 32 ∧ p.frameH < 2 ^ 32 ∧ p.quality < 2 ^ 8

theorem readsBack_positionReport {p : PositionReport} (h : PositionFits p)
    (hnumber : ∀ o ∈ positionNumbers p, (finite F).option.ReadsBack o)
    (hbox : (fixed4 (finite F)).option.ReadsBack p.bbox) : (positionReport F).ReadsBack p := by
  have hfaceCount : u32.required "face_count" (positionReportFields F p) = some p.faceCount :=
    required_of_once (by simp [once, positionReportFields]) (readsBack_u32 h.1)
  have hframeW : u32.required "frame_w" (positionReportFields F p) = some p.frameW :=
    required_of_once (by simp [once, positionReportFields]) (readsBack_u32 h.2.1)
  have hframeH : u32.required "frame_h" (positionReportFields F p) = some p.frameH :=
    required_of_once (by simp [once, positionReportFields]) (readsBack_u32 h.2.2.1)
  have hbbox : (fixed4 (finite F)).option.defaulted none "bbox" (positionReportFields F p) =
      some p.bbox :=
    defaulted_of_once (by simp [once, positionReportFields]) (hbox)
  have hfaceFrac : (finite F).option.defaulted none "face_frac" (positionReportFields F p) =
      some p.faceFrac :=
    defaulted_of_once (by simp [once, positionReportFields]) (hnumber _ (by simp [positionNumbers]))
  have hyawDeg : (finite F).option.defaulted none "yaw_deg" (positionReportFields F p) =
      some p.yawDeg :=
    defaulted_of_once (by simp [once, positionReportFields]) (hnumber _ (by simp [positionNumbers]))
  have hpitchDeg : (finite F).option.defaulted none "pitch_deg" (positionReportFields F p) =
      some p.pitchDeg :=
    defaulted_of_once (by simp [once, positionReportFields]) (hnumber _ (by simp [positionNumbers]))
  have hbrightness : (finite F).option.defaulted none "brightness" (positionReportFields F p) =
      some p.brightness :=
    defaulted_of_once (by simp [once, positionReportFields]) (hnumber _ (by simp [positionNumbers]))
  have hsharpness : (finite F).option.defaulted none "sharpness" (positionReportFields F p) =
      some p.sharpness :=
    defaulted_of_once (by simp [once, positionReportFields]) (hnumber _ (by simp [positionNumbers]))
  have hquality : u8.required "quality" (positionReportFields F p) = some p.quality :=
    required_of_once (by simp [once, positionReportFields]) (readsBack_natBelow h.2.2.2)
  have hirPresent : bool.required "ir_present" (positionReportFields F p) = some p.irPresent :=
    required_of_once (by simp [once, positionReportFields]) (readsBack_bool p.irPresent)
  have hirBrightness : (finite F).option.defaulted none "ir_brightness" (positionReportFields F p) =
      some p.irBrightness :=
    defaulted_of_once (by simp [once, positionReportFields]) (hnumber _ (by simp [positionNumbers]))
  have hirFaceBg : (finite F).option.defaulted none "ir_face_bg" (positionReportFields F p) =
      some p.irFaceBg :=
    defaulted_of_once (by simp [once, positionReportFields]) (hnumber _ (by simp [positionNumbers]))
  have hlowLight : bool.required "low_light" (positionReportFields F p) = some p.lowLight :=
    required_of_once (by simp [once, positionReportFields]) (readsBack_bool p.lowLight)
  have hwellFramed : bool.required "well_framed" (positionReportFields F p) = some p.wellFramed :=
    required_of_once (by simp [once, positionReportFields]) (readsBack_bool p.wellFramed)
  have hguidance : string.required "guidance" (positionReportFields F p) = some p.guidance :=
    required_of_once (by simp [once, positionReportFields]) (readsBack_string p.guidance)
  unfold ReadsBack positionReport
  exact read_step rfl <| read_step hfaceCount <| read_step hframeW <| read_step hframeH <|
    read_step hbbox <| read_step hfaceFrac <| read_step hyawDeg <| read_step hpitchDeg <|
    read_step hbrightness <| read_step hsharpness <| read_step hquality <| read_step hirPresent <|
    read_step hirBrightness <| read_step hirFaceBg <| read_step hlowLight <|
    read_step hwellFramed <| read_step hguidance <| rfl

def livenessNumbers (s : LivenessSummary) : List (Option ℚ) :=
  [s.spoofProb, s.mlScore, s.irScore, s.irMean, s.irStd, s.irHighlightFrac, s.irFaceBgRatio,
   s.irEyeGlint, s.irDepthRatio, s.faceFrac, s.yawDeg, s.pitchDeg]

theorem readsBack_livenessSummary {s : LivenessSummary}
    (hnumber : ∀ o ∈ livenessNumbers s, (finite F).option.ReadsBack o)
    (hdevice : (finite F).ReadsBack s.deviceScore) : (livenessSummary F).ReadsBack s := by
  have hdecision : string.required "decision" (livenessSummaryFields F s) = some s.decision :=
    required_of_once (by simp [once, livenessSummaryFields]) (readsBack_string s.decision)
  have hspoofProb : (finite F).option.defaulted none "spoof_prob" (livenessSummaryFields F s) =
      some s.spoofProb :=
    defaulted_of_once (by simp [once, livenessSummaryFields])
      (hnumber _ (by simp [livenessNumbers]))
  have hmlScore : (finite F).option.defaulted none "ml_score" (livenessSummaryFields F s) =
      some s.mlScore :=
    defaulted_of_once (by simp [once, livenessSummaryFields])
      (hnumber _ (by simp [livenessNumbers]))
  have hdeviceScore : (finite F).required "device_score" (livenessSummaryFields F s) =
      some s.deviceScore :=
    required_of_once (by simp [once, livenessSummaryFields]) (hdevice)
  have hdeviceName : string.option.defaulted none "device_name" (livenessSummaryFields F s) =
      some s.deviceName :=
    defaulted_of_once (by simp [once, livenessSummaryFields]) (readsBack_text s.deviceName)
  have hdeviceDriver : string.option.defaulted none "device_driver" (livenessSummaryFields F s) =
      some s.deviceDriver :=
    defaulted_of_once (by simp [once, livenessSummaryFields]) (readsBack_text s.deviceDriver)
  have hirScore : (finite F).option.defaulted none "ir_score" (livenessSummaryFields F s) =
      some s.irScore :=
    defaulted_of_once (by simp [once, livenessSummaryFields])
      (hnumber _ (by simp [livenessNumbers]))
  have hirMean : (finite F).option.defaulted none "ir_mean" (livenessSummaryFields F s) =
      some s.irMean :=
    defaulted_of_once (by simp [once, livenessSummaryFields])
      (hnumber _ (by simp [livenessNumbers]))
  have hirStd : (finite F).option.defaulted none "ir_std" (livenessSummaryFields F s) =
      some s.irStd :=
    defaulted_of_once (by simp [once, livenessSummaryFields])
      (hnumber _ (by simp [livenessNumbers]))
  have hirHighlightFrac :
      (finite F).option.defaulted none "ir_highlight_frac" (livenessSummaryFields F s) =
      some s.irHighlightFrac :=
    defaulted_of_once (by simp [once, livenessSummaryFields])
      (hnumber _ (by simp [livenessNumbers]))
  have hirFaceBgRatio :
      (finite F).option.defaulted none "ir_face_bg_ratio" (livenessSummaryFields F s) =
      some s.irFaceBgRatio :=
    defaulted_of_once (by simp [once, livenessSummaryFields])
      (hnumber _ (by simp [livenessNumbers]))
  have hirEyeGlint : (finite F).option.defaulted none "ir_eye_glint" (livenessSummaryFields F s) =
      some s.irEyeGlint :=
    defaulted_of_once (by simp [once, livenessSummaryFields])
      (hnumber _ (by simp [livenessNumbers]))
  have hirDepthRatio :
      (finite F).option.defaulted none "ir_depth_ratio" (livenessSummaryFields F s) =
      some s.irDepthRatio :=
    defaulted_of_once (by simp [once, livenessSummaryFields])
      (hnumber _ (by simp [livenessNumbers]))
  have hfaceFrac : (finite F).option.defaulted none "face_frac" (livenessSummaryFields F s) =
      some s.faceFrac :=
    defaulted_of_once (by simp [once, livenessSummaryFields])
      (hnumber _ (by simp [livenessNumbers]))
  have hyawDeg : (finite F).option.defaulted none "yaw_deg" (livenessSummaryFields F s) =
      some s.yawDeg :=
    defaulted_of_once (by simp [once, livenessSummaryFields])
      (hnumber _ (by simp [livenessNumbers]))
  have hpitchDeg : (finite F).option.defaulted none "pitch_deg" (livenessSummaryFields F s) =
      some s.pitchDeg :=
    defaulted_of_once (by simp [once, livenessSummaryFields])
      (hnumber _ (by simp [livenessNumbers]))
  have hreason : string.option.defaulted none "reason" (livenessSummaryFields F s) =
      some s.reason :=
    defaulted_of_once (by simp [once, livenessSummaryFields]) (readsBack_text s.reason)
  unfold ReadsBack livenessSummary
  exact read_step rfl <| read_step hdecision <| read_step hspoofProb <| read_step hmlScore <|
    read_step hdeviceScore <| read_step hdeviceName <| read_step hdeviceDriver <|
    read_step hirScore <| read_step hirMean <| read_step hirStd <| read_step hirHighlightFrac <|
    read_step hirFaceBgRatio <| read_step hirEyeGlint <| read_step hirDepthRatio <|
    read_step hfaceFrac <| read_step hyawDeg <| read_step hpitchDeg <| read_step hreason <| rfl

end Numbers


/-! ## Responses read back -/

/-- The numbers a response holds are of their types. -/
def ResponseFits : Response → Prop
  | .enrolled samples => samples < 2 ^ 64
  | .resealed bytes => bytes < 2 ^ 64
  | .diagnosed _ _ tracked drift _ => (∀ i ∈ tracked, i < 2 ^ 32) ∧ ∀ l ∈ drift, ∀ i ∈ l, i < 2 ^ 32
  | .position p => PositionFits p
  | .profiles profiles => ∀ info ∈ profiles, info.samples < 2 ^ 64
  | .profileDeleted _ samples => samples < 2 ^ 64
  | _ => True

def scoreNumbers (score : WithBot ℚ) : List ℚ := Option.toList score

def boxNumbers (b : ℚ × ℚ × ℚ × ℚ) : List ℚ := [b.1, b.2.1, b.2.2.1, b.2.2.2]

/-- The finite floats of a response and of what its fields default to. -/
def responseNumbers : Response → List ℚ
  | .verified _ score threshold => threshold :: defaultThreshold :: scoreNumbers score
  | .livenessChecked s => s.deviceScore :: (livenessNumbers s).flatMap Option.toList
  | .position p => p.bbox.toList.flatMap boxNumbers ++ (positionNumbers p).flatMap Option.toList
  | .identified best threshold candidates =>
      threshold :: (best.toList ++ candidates).flatMap fun found => scoreNumbers found.score
  | _ => []

/-- No score is minus infinity, which the writer turns into null. The other numbers are finite
throughout the model. -/
def ResponseFinite : Response → Prop
  | .verified _ score _ => score ≠ ⊥
  | .identified best _ candidates =>
      (∀ found ∈ best, found.score ≠ ⊥) ∧ ∀ found ∈ candidates, found.score ≠ ⊥
  | _ => True

section Response

variable {F : FloatText} {entries : List (String × JsonValue)}

theorem readsBack_score {score : WithBot ℚ} (hne : score ≠ ⊥)
    (h : ∀ q ∈ scoreNumbers score, (finite F).ReadsBack q) : (float F).ReadsBack score := by
  induction score with
  | bot => exact absurd rfl hne
  | coe q => exact readsBack_float (h q List.mem_cons_self)

theorem readsBack_numbers {os : List (Option ℚ)}
    (h : ∀ q ∈ os.flatMap Option.toList, (finite F).ReadsBack q) :
    ∀ o ∈ os, (finite F).option.ReadsBack o := by
  intro o ho
  apply readsBack_option (finite_ne_null F)
  intro q hq
  exact h q (List.mem_flatMap.2 ⟨o, ho, Option.mem_toList.2 hq⟩)

theorem readsBack_box {o : Option (ℚ × ℚ × ℚ × ℚ)}
    (h : ∀ q ∈ o.toList.flatMap boxNumbers, (finite F).ReadsBack q) :
    (fixed4 (finite F)).option.ReadsBack o := by
  apply readsBack_option
  · intro b hb
    cases hb
  · intro b hb
    have hlist : (finite F).list.ReadsBack (boxNumbers b) := by
      apply readsBack_list
      intro q hq
      exact h q (List.mem_flatMap.2 ⟨b, Option.mem_toList.2 hb, hq⟩)
    have hread : (finite F).list.read ((finite F).list.write (boxNumbers b)) =
        some (boxNumbers b) := hlist
    unfold ReadsBack fixed4
    simp only [boxNumbers] at hread
    simp only [hread, Option.bind_some]

theorem candidate_ne_null (F : FloatText) (found : IdentifyCandidate) :
    (identifyCandidate F).write found ≠ .null := by
  intro h
  cases h

theorem statusVariant_read {level : SecurityLevel} {mode : BootMode} {secureBoot : Bool}
    {loader : Option String}
    (h : Carries (responseDefaults F (.status level mode secureBoot loader))
      (responseFields F (.status level mode secureBoot loader)) entries) :
    statusVariant.read (.obj entries) = some (.status level mode secureBoot loader) := by
  have hlevel : securityLevel.required "security_level" entries = some level :=
    required_of_supplies (h _ _ (by simp [responseFields])) (by simp [responseDefaults])
      (readsBack_securityLevel level)
  have hmode : bootMode.required "boot_mode" entries = some mode :=
    required_of_supplies (h _ _ (by simp [responseFields])) (by simp [responseDefaults])
      (readsBack_bootMode mode)
  have hsecure : bool.required "secure_boot" entries = some secureBoot :=
    required_of_supplies (h _ _ (by simp [responseFields])) (by simp [responseDefaults])
      (readsBack_bool secureBoot)
  have hloader : string.option.defaulted none "loader" entries = some loader :=
    defaulted_of_supplies (h _ _ (by simp [responseFields]))
      (by simp [responseDefaults, option_read_null]) (readsBack_text loader)
  exact read_step rfl <| read_step hlevel <| read_step hmode <| read_step hsecure <|
    read_step hloader <| rfl

theorem verifiedVariant_read {isMatch : Bool} {score : WithBot ℚ} {threshold : ℚ}
    (h : Carries (responseDefaults F (.verified isMatch score threshold))
      (responseFields F (.verified isMatch score threshold))
      entries)
    (hscore : (float F).ReadsBack score) (hthreshold : (finite F).ReadsBack threshold)
    (hdefault : (finite F).ReadsBack defaultThreshold) :
    (verifiedVariant F).read (.obj entries) = some (.verified isMatch score threshold) := by
  have hmatch : bool.required "matched" entries = some isMatch :=
    required_of_supplies (h _ _ (by simp [responseFields])) (by simp [responseDefaults])
      (readsBack_bool isMatch)
  have hread : (float F).required "score" entries = some score :=
    required_of_supplies (h _ _ (by simp [responseFields])) (by simp [responseDefaults])
      hscore
  have hlast : (finite F).defaulted defaultThreshold "threshold" entries = some threshold := by
    apply defaulted_of_supplies (h _ _ (by simp [responseFields])) _ hthreshold
    intro v hv
    simp only [responseDefaults, List.mem_singleton, Prod.mk.injEq, true_and] at hv
    rw [hv]
    exact hdefault
  exact read_step rfl <| read_step hmatch <| read_step hread <| read_step hlast <| rfl

theorem diagnosedVariant_read {present : Bool} {level : SecurityLevel} {tracked : List Nat}
    {drift : Option (List Nat)}
    {tpmError : Option String}
    (h : Carries (responseDefaults F (.diagnosed present level tracked drift tpmError))
      (responseFields F (.diagnosed present level tracked drift tpmError))
      entries)
    (hfits : ResponseFits (.diagnosed present level tracked drift tpmError)) :
    diagnosedVariant.read (.obj entries) =
    some (.diagnosed present level tracked drift tpmError) := by
  have hpresent : bool.required "envelope_present" entries = some present :=
    required_of_supplies (h _ _ (by simp [responseFields])) (by simp [responseDefaults])
      (readsBack_bool present)
  have hlevel : securityLevel.required "security_level" entries = some level :=
    required_of_supplies (h _ _ (by simp [responseFields])) (by simp [responseDefaults])
      (readsBack_securityLevel level)
  have htracked : u32.list.required "tracked_pcrs" entries = some tracked :=
    required_of_supplies (h _ _ (by simp [responseFields])) (by simp [responseDefaults])
      (readsBack_list fun i hi => readsBack_u32 (hfits.1 i hi))
  have hdrift : u32.list.option.defaulted none "pcr_drift" entries = some drift :=
    defaulted_of_supplies (h _ _ (by simp [responseFields]))
      (by simp [responseDefaults, option_read_null]) (readsBack_option (list_ne_null u32)
        fun l hl => readsBack_list fun i hi => readsBack_u32 (hfits.2 l hl i hi))
  have htpm : string.option.defaulted none "tpm_error" entries = some tpmError :=
    defaulted_of_supplies (h _ _ (by simp [responseFields]))
      (by simp [responseDefaults, option_read_null]) (readsBack_text tpmError)
  exact read_step rfl <| read_step hpresent <| read_step hlevel <| read_step htracked <|
    read_step hdrift <| read_step htpm <| rfl

theorem userEnvelopesResealedVariant_read {password templateKey : Bool}
    (h : Carries (responseDefaults F (.userEnvelopesResealed password templateKey))
      (responseFields F (.userEnvelopesResealed password templateKey))
      entries) :
      userEnvelopesResealedVariant.read (.obj entries) =
      some (.userEnvelopesResealed password templateKey) := by
  have hpassword : bool.required "password" entries = some password :=
    required_of_supplies (h _ _ (by simp [responseFields])) (by simp [responseDefaults])
      (readsBack_bool password)
  have hkey : bool.required "template_key" entries = some templateKey :=
    required_of_supplies (h _ _ (by simp [responseFields])) (by simp [responseDefaults])
      (readsBack_bool templateKey)
  exact read_step rfl <| read_step hpassword <| read_step hkey <| rfl

theorem identifiedVariant_read {best : Option IdentifyCandidate} {threshold : ℚ}
    {candidates : List IdentifyCandidate}
    (h : Carries (responseDefaults F (.identified best threshold candidates))
      (responseFields F (.identified best threshold candidates))
      entries)
    (hthreshold : (finite F).ReadsBack threshold)
    (hscore : ∀ found ∈ best.toList ++ candidates, (float F).ReadsBack found.score) :
    (identifiedVariant F).read (.obj entries) = some (.identified best threshold candidates) := by
  have hbest : (identifyCandidate F).option.defaulted none "best" entries = some best :=
    defaulted_of_supplies (h _ _ (by simp [responseFields]))
      (by simp [responseDefaults, option_read_null])
        (readsBack_option (candidate_ne_null F) fun found hfound =>
        readsBack_identifyCandidate (hscore found (by simp [Option.mem_def.1 hfound])))
  have hread : (finite F).required "threshold" entries = some threshold :=
    required_of_supplies (h _ _ (by simp [responseFields])) (by simp [responseDefaults])
      hthreshold
  have hcandidates : (identifyCandidate F).list.required "candidates" entries = some candidates :=
    required_of_supplies (h _ _ (by simp [responseFields])) (by simp [responseDefaults])
      (readsBack_list fun found hfound =>
        readsBack_identifyCandidate (hscore found (List.mem_append_right _ hfound)))
  exact read_step rfl <| read_step hbest <| read_step hread <| read_step hcandidates <| rfl

theorem profileDeletedVariant_read {user : String} {samples : Nat}
    (h : Carries (responseDefaults F (.profileDeleted user samples))
      (responseFields F (.profileDeleted user samples))
      entries) (hfits : samples < 2 ^ 64) :
      profileDeletedVariant.read (.obj entries) = some (.profileDeleted user samples) := by
  have huser : string.required "user" entries = some user :=
    required_of_supplies (h _ _ (by simp [responseFields])) (by simp [responseDefaults])
      (readsBack_string user)
  have hsamples : usize.required "samples" entries = some samples :=
    required_of_supplies (h _ _ (by simp [responseFields])) (by simp [responseDefaults])
      (readsBack_natBelow hfits)
  exact read_step rfl <| read_step huser <| read_step hsamples <| rfl

theorem authPlanVariant_read {engage : Bool} {action : String} {notice : Option String}
    (h : Carries (responseDefaults F (.authPlan engage action notice))
      (responseFields F (.authPlan engage action notice))
      entries) : authPlanVariant.read (.obj entries) = some (.authPlan engage action notice) := by
  have hengage : bool.required "engage" entries = some engage :=
    required_of_supplies (h _ _ (by simp [responseFields])) (by simp [responseDefaults])
      (readsBack_bool engage)
  have haction : string.required "action" entries = some action :=
    required_of_supplies (h _ _ (by simp [responseFields])) (by simp [responseDefaults])
      (readsBack_string action)
  have hnotice : string.option.defaulted none "camera_notice" entries = some notice :=
    defaulted_of_supplies (h _ _ (by simp [responseFields]))
      (by simp [responseDefaults, option_read_null]) (readsBack_text notice)
  exact read_step rfl <| read_step hengage <| read_step haction <| read_step hnotice <| rfl

theorem policyStatusVariant_read {report : PolicyStatusReport}
    (h : Carries (responseDefaults F (.policyStatus report))
      (responseFields F (.policyStatus report))
      entries) : policyStatusVariant.read (.obj entries) = some (.policyStatus report) := by
  have htier : string.required "tier" entries = some report.tier :=
    required_of_supplies (h _ _ (by simp [responseFields])) (by simp [responseDefaults])
      (readsBack_string report.tier)
  have hsecure : bool.required "secure" entries = some report.secure :=
    required_of_supplies (h _ _ (by simp [responseFields])) (by simp [responseDefaults])
      (readsBack_bool report.secure)
  have hhardware : string.required "hardware_tier" entries = some report.hardwareTier :=
    required_of_supplies (h _ _ (by simp [responseFields])) (by simp [responseDefaults])
      (readsBack_string report.hardwareTier)
  have hoverridden : bool.required "overridden" entries = some report.overridden :=
    required_of_supplies (h _ _ (by simp [responseFields])) (by simp [responseDefaults])
      (readsBack_bool report.overridden)
  have henrolled : bool.required "enrolled" entries = some report.enrolled :=
    required_of_supplies (h _ _ (by simp [responseFields])) (by simp [responseDefaults])
      (readsBack_bool report.enrolled)
  have hready : bool.defaulted true "hardware_ready" entries = some report.hardwareReady :=
    defaulted_of_supplies (h _ _ (by simp [responseFields]))
      (by simp [responseDefaults, JsonCodec.bool]) (readsBack_bool report.hardwareReady)
  have hnote : string.defaulted "" "hardware_note" entries = some report.hardwareNote :=
    defaulted_of_supplies (h _ _ (by simp [responseFields]))
      (by simp [responseDefaults, JsonCodec.string]) (readsBack_string report.hardwareNote)
  have hops : operationPolicy.list.required "ops" entries = some report.ops :=
    required_of_supplies (h _ _ (by simp [responseFields])) (by simp [responseDefaults])
      (readsBack_list fun op _ => readsBack_operationPolicy op)
  exact read_step rfl <| read_step htier <| read_step hsecure <| read_step hhardware <|
    read_step hoverridden <| read_step henrolled <| read_step hready <| read_step hnote <|
    read_step hops <| rfl

theorem oneField_read {α : Type} {name field : String} {c : JsonCodec α} {make : α → Response}
    {a : α} (h : Carries [] [(field, c.write a)] entries) (hback : c.ReadsBack a) :
    (oneField name field c make).read (.obj entries) = some (make a) := by
  have hfield : c.required field entries = some a :=
    required_of_supplies (h _ _ (by simp)) (by simp) hback
  simp only [oneField, fieldsRest, fields, Option.bind_some, hfield, Option.map_some]

theorem responseVariants_names : ((responseVariants F).map Variant.name).Nodup := by
  simp [responseVariants, statusVariant, oneField, verifiedVariant, diagnosedVariant,
    userEnvelopesResealedVariant, identifiedVariant, profileDeletedVariant, authPlanVariant,
    policyStatusVariant]

/-- What is left beside the tag is read as the response that is carried. -/
theorem responseVariants_read {r : Response} (hfits : ResponseFits r) (hfinite : ResponseFinite r)
    (hnumbers : ∀ q ∈ responseNumbers r, (finite F).ReadsBack q) :
    ∃ variant ∈ responseVariants F, variant.name = responseKind r ∧
      ∀ rest, Carries (responseDefaults F r) (responseFields F r) rest →
        variant.read (.obj rest) = some r := by
  cases r with
  | status level mode secureBoot loader =>
      exact ⟨statusVariant, by simp [responseVariants], rfl, fun _ h => statusVariant_read h⟩
  | enrolled samples =>
      exact ⟨oneField "enrolled" "samples" usize .enrolled, by simp [responseVariants], rfl,
        fun _ h => oneField_read h (readsBack_natBelow hfits)⟩
  | verified isMatch score threshold =>
      have hscore : (float F).ReadsBack score := by
        apply readsBack_score hfinite
        intro q hq
        exact hnumbers q (List.mem_cons_of_mem _ (List.mem_cons_of_mem _ hq))
      have hthreshold := hnumbers threshold List.mem_cons_self
      have hdefault := hnumbers defaultThreshold (List.mem_cons_of_mem _ List.mem_cons_self)
      exact ⟨verifiedVariant F, by simp [responseVariants], rfl,
        fun _ h => verifiedVariant_read h hscore hthreshold hdefault⟩
  | unsealed secret =>
      exact ⟨oneField "unsealed" "secret" secretBytes .unsealed, by simp [responseVariants], rfl,
        fun _ h => oneField_read h (readsBack_secretBytes secret)⟩
  | resealed bytes =>
      exact ⟨oneField "resealed" "bytes" usize .resealed, by simp [responseVariants], rfl,
        fun _ h => oneField_read h (readsBack_natBelow hfits)⟩
  | passwordSealed =>
      exact ⟨⟨"password_sealed", emptyRest .passwordSealed⟩,
        by simp [responseVariants], rfl, fun _ _ => rfl⟩
  | passwordUnsealed secret =>
      exact ⟨oneField "password_unsealed" "secret" secretBytes .passwordUnsealed,
        by simp [responseVariants], rfl, fun _ h => oneField_read h (readsBack_secretBytes secret)⟩
  | diagnosed present level tracked drift tpmError =>
      exact ⟨diagnosedVariant,
        by simp [responseVariants], rfl, fun _ h => diagnosedVariant_read h hfits⟩
  | livenessChecked summary =>
      have hdevice := hnumbers summary.deviceScore List.mem_cons_self
      have hothers := readsBack_numbers fun q hq => hnumbers q (List.mem_cons_of_mem _ hq)
      exact ⟨oneField "liveness_checked" "summary" (livenessSummary F) .livenessChecked,
        by simp [responseVariants], rfl,
        fun _ h => oneField_read h (readsBack_livenessSummary hothers hdevice)⟩
  | userEnvelopesResealed password templateKey =>
      exact ⟨userEnvelopesResealedVariant, by simp [responseVariants], rfl,
        fun _ h => userEnvelopesResealedVariant_read h⟩
  | capabilities report =>
      exact ⟨oneField "capabilities" "report" capabilityReport .capabilities,
        by simp [responseVariants], rfl,
        fun _ h => oneField_read h (readsBack_capabilityReport report)⟩
  | position report =>
      have hbox := readsBack_box fun q hq => hnumbers q (List.mem_append_left _ hq)
      have hothers := readsBack_numbers fun q hq => hnumbers q (List.mem_append_right _ hq)
      exact ⟨oneField "position" "report" (positionReport F) .position,
        by simp [responseVariants], rfl,
        fun _ h => oneField_read h (readsBack_positionReport hfits hothers hbox)⟩
  | profiles profiles =>
      exact ⟨oneField "profiles" "profiles" profileInfo.list .profiles,
        by simp [responseVariants], rfl,
        fun _ h => oneField_read h (readsBack_list fun info hinfo =>
          readsBack_profileInfo (hfits info hinfo))⟩
  | identified best threshold candidates =>
      have hthreshold := hnumbers threshold List.mem_cons_self
      have hscore : ∀ found ∈ best.toList ++ candidates, (float F).ReadsBack found.score := by
        intro found hfound
        apply readsBack_score
        · rcases List.mem_append.1 hfound with hbest | hcandidate
          · exact hfinite.1 found (Option.mem_toList.1 hbest)
          · exact hfinite.2 found hcandidate
        · intro q hq
          exact hnumbers q (List.mem_cons_of_mem _ (List.mem_flatMap.2 ⟨found, hfound, hq⟩))
      exact ⟨identifiedVariant F, by simp [responseVariants], rfl,
        fun _ h => identifiedVariant_read h hthreshold hscore⟩
  | profileNameSet =>
      exact ⟨⟨"profile_name_set", emptyRest .profileNameSet⟩,
        by simp [responseVariants], rfl, fun _ _ => rfl⟩
  | profileDeleted user samples =>
      exact ⟨profileDeletedVariant,
        by simp [responseVariants], rfl, fun _ h => profileDeletedVariant_read h hfits⟩
  | recoverySaved =>
      exact ⟨⟨"recovery_saved", emptyRest .recoverySaved⟩,
        by simp [responseVariants], rfl, fun _ _ => rfl⟩
  | recoveryRestored =>
      exact ⟨⟨"recovery_restored", emptyRest .recoveryRestored⟩,
        by simp [responseVariants], rfl, fun _ _ => rfl⟩
  | authPlan engage action notice =>
      exact ⟨authPlanVariant, by simp [responseVariants], rfl, fun _ h => authPlanVariant_read h⟩
  | policyStatus report =>
      exact ⟨policyStatusVariant,
        by simp [responseVariants], rfl, fun _ h => policyStatusVariant_read h⟩
  | error message =>
      exact ⟨oneField "error" "message" string .error, by simp [responseVariants], rfl,
        fun _ h => oneField_read h (readsBack_string message)⟩

theorem kind_not_mem_responseFields (r : Response) :
    "kind" ∉ (responseFields F r).map Prod.fst := by
  cases r <;> simp [responseFields]

/-- A response is read from every object that carries it, with its fields in any order, among
fields the reader does not know, and without those that have their defaults. -/
theorem response_read {r : Response} (hfits : ResponseFits r) (hfinite : ResponseFinite r)
    (hnumbers : ∀ q ∈ responseNumbers r, (finite F).ReadsBack q)
    (htag : once "kind" entries = some (some (.str (responseKind r))))
    (h : Carries (responseDefaults F r) (responseFields F r) entries) :
    (response F).read (.obj entries) = some r := by
  obtain ⟨variant, hmem, hname, hread⟩ := responseVariants_read hfits hfinite hnumbers
  rw [← hname] at htag
  change readTagged "kind" (responseVariants F) (.obj entries) = some r
  rw [readTagged_of_mem responseVariants_names hmem htag]
  exact hread _ (h.filter_ne (kind_not_mem_responseFields r))

theorem response_names (r : Response) :
    ((("kind", .str (responseKind r)) :: responseFields F r).map Prod.fst).Nodup := by
  rw [List.map_cons, List.nodup_cons]
  refine ⟨kind_not_mem_responseFields r, ?_⟩
  cases r <;> simp [responseFields]

theorem identifyCandidate_unreadable {found : IdentifyCandidate} (h : found.score = ⊥) :
    (identifyCandidate F).read ((identifyCandidate F).write found) = none := by
  have hscore : (float F).required "score" (identifyCandidateFields F found) = none := by
    apply required_of_unreadable (a := found.score)
    · simp [once, identifyCandidateFields]
    · rw [h]
      exact float_read_bot F
  unfold identifyCandidate
  exact read_past rfl <| read_fails <| .inr fun _ => read_fails <| .inr fun _ =>
    read_fails <| .inl hscore

theorem response_unreadable {r : Response} {variant : Variant Response}
    (hmem : variant ∈ responseVariants F) (hname : variant.name = responseKind r)
    (h : ∀ entries, (∀ name v, (name, v) ∈ responseFields F r →
      once name entries = some (some v)) → variant.read (.obj entries) = none) :
    (response F).read ((response F).write r) = none := by
  have htag : once "kind" (("kind", .str (responseKind r)) :: responseFields F r) =
      some (some (.str variant.name)) := by
    rw [hname]
    exact once_of_mem (response_names r) List.mem_cons_self
  change readTagged "kind" (responseVariants F) (.obj _) = none
  rw [readTagged_of_mem responseVariants_names hmem htag]
  apply h
  intro name v hv
  have hne : name ≠ "kind" := by
    rintro rfl
    exact kind_not_mem_responseFields r (List.mem_map_of_mem hv)
  rw [once_filter_ne hne]
  exact once_of_mem (response_names r) (List.mem_cons_of_mem _ hv)

theorem verified_unreadable (isMatch : Bool) (threshold : ℚ) :
    (response F).read ((response F).write (.verified isMatch ⊥ threshold)) = none := by
  have hmem : verifiedVariant F ∈ responseVariants F := by simp [responseVariants]
  apply response_unreadable hmem rfl
  intro entries h
  have hscore : (float F).required "score" entries = none :=
    required_of_unreadable (h _ _ (by simp [responseFields])) (float_read_bot F)
  exact read_past rfl <| read_fails <| .inr fun _ => read_fails <| .inl hscore

private theorem identified_unreadable {best : Option IdentifyCandidate} {threshold : ℚ}
    {candidates : List IdentifyCandidate}
    (h : ∃ found ∈ best.toList ++ candidates, found.score = ⊥) :
    (response F).read ((response F).write (.identified best threshold candidates)) = none := by
  have hmem : identifiedVariant F ∈ responseVariants F := by simp [responseVariants]
  apply response_unreadable hmem rfl
  intro entries hthere
  obtain ⟨found, hfound, hscore⟩ := h
  have hbad := identifyCandidate_unreadable (F := F) hscore
  rcases List.mem_append.1 hfound with hbest | hcandidate
  · have hfield : (identifyCandidate F).option.defaulted none "best" entries = none := by
      apply defaulted_of_unreadable (a := best) (hthere _ _ (by simp [responseFields]))
      rw [Option.mem_def.1 (Option.mem_toList.1 hbest)]
      exact option_unreadable (candidate_ne_null F found) hbad
    exact read_past rfl <| read_fails <| .inl hfield
  · have hfield : (identifyCandidate F).list.required "candidates" entries = none :=
      required_of_unreadable (hthere _ _ (by simp [responseFields]))
        (list_unreadable hcandidate hbad)
    exact read_past rfl <| read_fails <| .inr fun _ => read_fails <| .inr fun _ =>
      read_fails <| .inl hfield

theorem response_read_write_of_not_finite {r : Response} (h : ¬ ResponseFinite r) :
    (response F).read ((response F).write r) = none := by
  cases r with
  | verified isMatch score threshold =>
      have hbot : score = ⊥ := of_not_not h
      rw [hbot]
      exact verified_unreadable isMatch threshold
  | identified best threshold candidates =>
      apply identified_unreadable
      by_contra hnone
      push Not at hnone
      apply h
      constructor
      · intro found hbest
        exact hnone found (List.mem_append_left _ (Option.mem_toList.2 hbest))
      · intro found hcandidate
        exact hnone found (List.mem_append_right _ hcandidate)
  | _ => exact absurd trivial h

/-- A finite response is read from every object that carries it; any other is not read from
what its own writer makes of it. -/
theorem response_wire {r : Response} (hfits : ResponseFits r)
    (hnumbers : ∀ q ∈ responseNumbers r, (finite F).ReadsBack q) :
    (ResponseFinite r → ∀ entries, once "kind" entries = some (some (.str (responseKind r))) →
      Carries (responseDefaults F r) (responseFields F r) entries →
      (response F).read (.obj entries) = some r) ∧
      (¬ ResponseFinite r → (response F).read ((response F).write r) = none) :=
  ⟨fun hfinite _ htag h => response_read hfits hfinite hnumbers htag h,
   response_read_write_of_not_finite⟩

/-- A plan of a daemon that has no camera notices, among a field nobody knows. -/
theorem response_wire_older :
    (response ⟨fun _ => "0.6", fun _ => some (3 / 5), fun n => n⟩).read
      (.obj [("action", .str "verify"), ("since", .int 3), ("kind", .str "auth_plan"),
        ("engage", .bool true)]) = some (.authPlan true "verify" none) := by
  have hfits : ResponseFits (.authPlan true "verify" none) := trivial
  refine (response_wire hfits fun q h => absurd h List.not_mem_nil).1 trivial _ ?_ ?_
  · simp [once, responseKind]
  · intro name v hmem
    simp only [responseFields, List.mem_cons, List.not_mem_nil, or_false, Prod.mk.injEq] at hmem
    rcases hmem with ⟨rfl, rfl⟩ | ⟨rfl, rfl⟩ | ⟨rfl, rfl⟩
    · exact .inl (by simp [once, JsonCodec.bool])
    · exact .inl (by simp [once, JsonCodec.string])
    · exact .inr ⟨by simp [once], List.mem_singleton.2 rfl⟩

end Response

end Linhello.Common.Wire
