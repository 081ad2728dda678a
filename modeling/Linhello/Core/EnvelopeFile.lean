import Linhello.Common.ConfigFile
import Linhello.Common.JsonValue
import Linhello.Core.Envelope
/-!
# The envelope file

`SealedEnvelope` as JSON, and `save` and `load` on one file. Base64 and the JSON text are
parameters.
-/

namespace Linhello.Core.EnvelopeFile

open Common Common.Conf Effect
open Common.JsonCodec

/-! ## The record -/

section Codec

variable (encode : Bytes → String) (decode : String → Except String Bytes)

def b64 : JsonCodec Bytes := string.via encode fun s => (decode s).toOption

def pcrValue : JsonCodec PcrValue where
  write p := .obj [("pcr", u32.write p.pcr), ("value", (b64 encode decode).write p.value)]
  read v := do
    let entries ← fields ["pcr", "value"] v
    let pcr ← u32.required "pcr" entries
    let value ← (b64 encode decode).required "value" entries
    pure { pcr := pcr, value := value }

def levelName : SecurityLevel → String
  | .full => "Full"
  | .medium => "Medium"
  | .basic => "Basic"

def securityLevel : JsonCodec SecurityLevel := variants [.full, .medium, .basic] levelName

/-- What is left beside the tag of a variant without data. -/
def unitRest : JsonValue → Option Unit
  | .obj _ | .arr [] => some ()
  | _ => none

def policyKind : JsonCodec PolicyKind where
  write
    | .pcrLiteral => .obj [("type", .str "pcr_literal")]
    | .authorized pubkeyPem policyRef =>
        .obj [("type", .str "authorized"), ("pubkey_pem", string.write pubkeyPem),
          ("policy_ref", (b64 encode decode).write policyRef)]
  read v := do
    let (kind, rest) ← tagged "type" v
    if kind = "pcr_literal" then
      unitRest rest
      pure .pcrLiteral
    else if kind = "authorized" then
      let entries ← fields ["pubkey_pem", "policy_ref"] rest
      let pubkeyPem ← string.required "pubkey_pem" entries
      let policyRef ← (b64 encode decode).defaulted [] "policy_ref" entries
      pure (.authorized pubkeyPem policyRef)
    else none

def FIELDS : List String :=
  ["version", "mode", "pcrs", "policy", "public", "private", "pcr_values"]

def sealedEnvelope : JsonCodec SealedEnvelope where
  write env := .obj ([("version", u32.write env.version), ("mode", securityLevel.write env.mode),
    ("pcrs", u32.list.write env.pcrs), ("policy", (policyKind encode decode).write env.policy),
    ("public", (b64 encode decode).write env.pub),
    ("private", (b64 encode decode).write env.priv)] ++
    -- an empty list is not written
    if env.pcrValues = [] then []
    else [("pcr_values", (pcrValue encode decode).list.write env.pcrValues)])
  read v := do
    let entries ← fields FIELDS v
    let version ← u32.required "version" entries
    let mode ← securityLevel.required "mode" entries
    let pcrs ← u32.list.required "pcrs" entries
    let policy ← (policyKind encode decode).defaulted .pcrLiteral "policy" entries
    let pub ← (b64 encode decode).required "public" entries
    let priv ← (b64 encode decode).required "private" entries
    let pcrValues ← (pcrValue encode decode).list.defaulted [] "pcr_values" entries
    pure { version := version, mode := mode, pcrs := pcrs, policy := policy, pub := pub,
           priv := priv, pcrValues := pcrValues }

end Codec

/-! ## The file -/

section File

variable (J : JsonText) (encode : Bytes → String) (decode : String → Except String Bytes)

/-- `made` is what `create_dir_all` answered for the directory. -/
def save (made : Except IoError Unit) (env : SealedEnvelope) : Fallible Unit := do
  settle (made.mapError .io)
  fsWrite (utf8 (J.toStringPretty (sealedEnvelope encode decode) env))

def load : Fallible SealedEnvelope := do
  let s ← attempt .io (perform .readToString)
  settle ((J.fromStr (sealedEnvelope encode decode) s).mapError .serde)

end File

/-! ## Records read back -/

section ReadsBack

variable {encode : Bytes → String} {decode : String → Except String Bytes}
  {entries : List (String × JsonValue)}

theorem pcrValue_read {p : PcrValue} (hpcr : u32.required "pcr" entries = some p.pcr)
    (hvalue : (b64 encode decode).required "value" entries = some p.value) :
    (pcrValue encode decode).read (.obj entries) = some p := by
  unfold pcrValue
  simp only [fields, Option.bind_eq_bind, Option.bind_some, hpcr, hvalue]
  rfl

theorem policyKind_read_literal (h : string.required "type" entries = some "pcr_literal") :
    (policyKind encode decode).read (.obj entries) = some .pcrLiteral := by
  unfold policyKind
  simp only [tagged, h, Option.bind_eq_bind, Option.bind_some, if_true, unitRest]
  rfl

theorem policyKind_read_authorized {pubkeyPem : String} {policyRef : Bytes}
    (h : string.required "type" entries = some "authorized")
    (hkey : string.required "pubkey_pem" (entries.filter fun entry => entry.1 ≠ "type") =
      some pubkeyPem)
    (href : (b64 encode decode).defaulted [] "policy_ref"
      (entries.filter fun entry => entry.1 ≠ "type") = some policyRef) :
    (policyKind encode decode).read (.obj entries) = some (.authorized pubkeyPem policyRef) := by
  have hkind : ¬("authorized" : String) = "pcr_literal" := by decide
  unfold policyKind
  simp only [tagged, h, Option.bind_eq_bind, Option.bind_some, hkind, if_true, if_false, fields,
    hkey, href]
  rfl

theorem sealedEnvelope_read {env : SealedEnvelope}
    (hversion : u32.required "version" entries = some env.version)
    (hmode : securityLevel.required "mode" entries = some env.mode)
    (hpcrs : u32.list.required "pcrs" entries = some env.pcrs)
    (hpolicy : (policyKind encode decode).defaulted .pcrLiteral "policy" entries = some env.policy)
    (hpub : (b64 encode decode).required "public" entries = some env.pub)
    (hpriv : (b64 encode decode).required "private" entries = some env.priv)
    (hvalues : (pcrValue encode decode).list.defaulted [] "pcr_values" entries =
      some env.pcrValues) :
    (sealedEnvelope encode decode).read (.obj entries) = some env := by
  unfold sealedEnvelope
  simp only [fields, Option.bind_eq_bind, Option.bind_some, hversion, hmode, hpcrs, hpolicy, hpub,
    hpriv, hvalues]
  rfl

theorem readsBack_securityLevel (level : SecurityLevel) : securityLevel.ReadsBack level := by
  apply readsBack_variants
  · cases level <;> decide
  · intro other _ hname
    revert hname
    cases level <;> cases other <;> decide

variable (hb64 : ∀ b, decode (encode b) = .ok b)

include hb64

theorem readsBack_b64 (b : Bytes) : (b64 encode decode).ReadsBack b := by
  apply readsBack_via (readsBack_string _)
  rw [hb64]
  rfl

theorem readsBack_pcrValue {p : PcrValue} (h : p.pcr < 2 ^ 32) :
    (pcrValue encode decode).ReadsBack p := by
  apply pcrValue_read
  · exact required_of_once (by simp [once]) (readsBack_u32 h)
  · exact required_of_once (by simp [once]) (readsBack_b64 hb64 p.value)

theorem readsBack_policyKind (kind : PolicyKind) : (policyKind encode decode).ReadsBack kind := by
  cases kind with
  | pcrLiteral =>
      exact policyKind_read_literal
        (required_of_once (by simp [once, string]) (readsBack_string _))
  | authorized pubkeyPem policyRef =>
      apply policyKind_read_authorized
      · exact required_of_once (by simp [once, string]) (readsBack_string _)
      · exact required_of_once (by simp [once]) (readsBack_string _)
      · exact defaulted_of_once (by simp [once]) (readsBack_b64 hb64 policyRef)

theorem readsBack_sealedEnvelope {env : SealedEnvelope} (hversion : env.version < 2 ^ 32)
    (hpcrs : ∀ i ∈ env.pcrs, i < 2 ^ 32) (hvalues : ∀ p ∈ env.pcrValues, p.pcr < 2 ^ 32) :
    (sealedEnvelope encode decode).ReadsBack env := by
  have hlist := readsBack_list fun i hi => readsBack_u32 (hpcrs i hi)
  have hread := readsBack_list fun p hp => readsBack_pcrValue hb64 (hvalues p hp)
  by_cases hnone : env.pcrValues = []
  · apply sealedEnvelope_read
    · exact required_of_once (by simp [once, hnone]) (readsBack_u32 hversion)
    · exact required_of_once (by simp [once, hnone]) (readsBack_securityLevel env.mode)
    · exact required_of_once (by simp [once, hnone]) hlist
    · exact defaulted_of_once (by simp [once, hnone]) (readsBack_policyKind hb64 env.policy)
    · exact required_of_once (by simp [once, hnone]) (readsBack_b64 hb64 env.pub)
    · exact required_of_once (by simp [once, hnone]) (readsBack_b64 hb64 env.priv)
    · rw [hnone]
      exact defaulted_of_absent (by simp [once])
  · apply sealedEnvelope_read
    · exact required_of_once (by simp [once, hnone]) (readsBack_u32 hversion)
    · exact required_of_once (by simp [once, hnone]) (readsBack_securityLevel env.mode)
    · exact required_of_once (by simp [once, hnone]) hlist
    · exact defaulted_of_once (by simp [once, hnone]) (readsBack_policyKind hb64 env.policy)
    · exact required_of_once (by simp [once, hnone]) (readsBack_b64 hb64 env.pub)
    · exact required_of_once (by simp [once, hnone]) (readsBack_b64 hb64 env.priv)
    · exact defaulted_of_once (by simp [once, hnone]) hread

end ReadsBack

/-! ## Files read back -/

section Saved

variable {J : JsonText} {encode : Bytes → String} {decode : String → Except String Bytes}
  {faulty : Prop} {made : Except IoError Unit} {env : SealedEnvelope} {f f' f'' : File}

theorem file_of_save (h : Exec (Step faulty) (save J encode decode made env).run f (.ok ()) f') :
    f' = some (utf8 (J.toStringPretty (sealedEnvelope encode decode) env)) := by
  unfold save at h
  obtain ⟨_, u, ⟨-, rfl⟩, hwrite⟩ := exec_exceptT_bind_ok.1 h
  obtain ⟨events, hrec⟩ := exec_recorded hwrite []
  rcases runs_fsWrite (runs_of_exec hrec) with ⟨-, hok, -⟩ | ⟨rest, -, hfile, hall⟩
  · exact absurd rfl hok
  · rwa [hall rfl] at hfile

/-- What `load` makes of a file that can be read. -/
def loaded (J : JsonText) (encode : Bytes → String) (decode : String → Except String Bytes)
    (f : File) : Except LinuxHelloError SealedEnvelope :=
  match contentOf f with
  | .ok s => (J.fromStr (sealedEnvelope encode decode) s).mapError .serde
  | .error err => .error (.io err)

theorem loaded_of_text (s : String) : loaded J encode decode (some (utf8 s)) =
    (J.fromStr (sealedEnvelope encode decode) s).mapError .serde := by
  unfold loaded
  rw [contentOf, ofUtf8_utf8]

theorem exec_load {r : Except LinuxHelloError SealedEnvelope}
    (h : Exec (Step False) (load J encode decode).run f r f') : r = loaded J encode decode f := by
  unfold load at h
  unfold loaded
  rcases exec_exceptT_bind.1 h with ⟨s, u, hread, hrest⟩ | ⟨e, hread, rfl⟩
  · obtain ⟨hallows, -⟩ := exec_perform.1 (exec_attempt_ok.1 hread)
    have hcontent : contentOf f = .ok s := hallows
    rw [hcontent]
    exact hrest.1
  · obtain ⟨answer, hanswer, he⟩ := exec_attempt.1 hread
    obtain ⟨hallows, -⟩ := exec_perform.1 hanswer
    cases answer with
    | ok s => cases he
    | error err =>
        have hcontent : contentOf f = .error err := hallows.resolve_right not_false
        rw [hcontent, Except.error.inj he]

theorem exec_loaded (f : File) :
    Exec (Step False) (load J encode decode).run f (loaded J encode decode f) f := by
  unfold load loaded
  apply exec_exceptT_bind.2
  cases hcontent : contentOf f with
  | ok s =>
      have hread : Step False f .readToString (.ok s) f := ⟨hcontent, rfl⟩
      exact .inl ⟨s, f, exec_attempt_ok.2 (exec_perform.2 hread), rfl, rfl⟩
  | error err =>
      have hread : Step False f .readToString (.error err) f := ⟨.inl hcontent, rfl⟩
      exact .inr ⟨.io err, exec_attempt.2 ⟨.error err, exec_perform.2 hread, rfl⟩, rfl⟩

theorem load_of_save {r : Except LinuxHelloError SealedEnvelope}
    (htext : J.parse (J.print ((sealedEnvelope encode decode).write env)) =
      some ((sealedEnvelope encode decode).write env))
    (hback : (sealedEnvelope encode decode).ReadsBack env)
    (hsave : Exec (Step faulty) (save J encode decode made env).run f (.ok ()) f')
    (hload : Exec (Step False) (load J encode decode).run f' r f'') : r = .ok env := by
  rw [exec_load hload, file_of_save hsave, loaded_of_text,
    JsonText.fromStr_toStringPretty htext hback]
  rfl

end Saved

end Linhello.Core.EnvelopeFile
