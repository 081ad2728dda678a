import Linhello.Common.Ipc
import Linhello.Common.JsonRecord
/-!
# Messages on the socket

Requests and responses as the JSON objects they travel as. A message is read from every
object that carries its entries, whatever else that has, and a field an older daemon does
not send takes its default. A score of minus infinity travels as null, which no reader of
a score accepts.
-/

namespace Linhello.Common.Wire

open JsonCodec

def secretBytes : JsonCodec Bytes := byte.list

/-! ## Requests -/

def requestKind : Request → String
  | .status => "status"
  | .enroll _ _ => "enroll"
  | .verify _ => "verify"
  | .unseal _ => "unseal"
  | .reseal => "reseal"
  | .sealPassword _ _ => "seal_password"
  | .unsealPassword _ => "unseal_password"
  | .authenticate _ _ => "authenticate"
  | .authIntent _ _ => "auth_intent"
  | .policyStatus _ => "policy_status"
  | .diagnose => "diagnose"
  | .livenessTest => "liveness_test"
  | .resealUserEnvelopes _ => "reseal_user_envelopes"
  | .probe => "probe"
  | .positionSample => "position_sample"
  | .listProfiles => "list_profiles"
  | .identify => "identify"
  | .setProfileName _ _ => "set_profile_name"
  | .deleteProfile _ => "delete_profile"
  | .saveRecovery _ _ => "save_recovery"
  | .restoreFromRecovery _ _ => "restore_from_recovery"

def requestFields : Request → List (String × JsonValue)
  | .enroll user reset => [("user", string.write user), ("reset", bool.write reset)]
  | .verify user | .unseal user | .unsealPassword user | .policyStatus user
  | .resealUserEnvelopes user | .deleteProfile user => [("user", string.write user)]
  | .sealPassword user password =>
      [("user", string.write user), ("password", secretBytes.write password)]
  | .authenticate user service | .authIntent user service =>
      [("user", string.write user), ("service", string.write service)]
  | .setProfileName user name => [("user", string.write user), ("name", string.write name)]
  | .saveRecovery user passphrase | .restoreFromRecovery user passphrase =>
      [("user", string.write user), ("passphrase", secretBytes.write passphrase)]
  | .status | .reseal | .diagnose | .livenessTest | .probe | .positionSample | .listProfiles
  | .identify => []

def userVariant (name : String) (make : String → Request) : Variant Request where
  name := name
  read := fieldsRest ["user"] fun entries => (string.required "user" entries).map make

def textVariant (name field : String) (make : String → String → Request) : Variant Request where
  name := name
  read := fieldsRest ["user", field] fun entries => do
    let user ← string.required "user" entries
    let text ← string.required field entries
    pure (make user text)

def secretVariant (name field : String) (make : String → Bytes → Request) : Variant Request where
  name := name
  read := fieldsRest ["user", field] fun entries => do
    let user ← string.required "user" entries
    let secret ← secretBytes.required field entries
    pure (make user secret)

def enrollVariant : Variant Request where
  name := "enroll"
  read := fieldsRest ["user", "reset"] fun entries => do
    let user ← string.required "user" entries
    let reset ← bool.defaulted false "reset" entries
    pure (.enroll user reset)

def requestVariants : List (Variant Request) :=
  [⟨"status", emptyRest .status⟩, enrollVariant, userVariant "verify" .verify,
   userVariant "unseal" .unseal, ⟨"reseal", emptyRest .reseal⟩,
   secretVariant "seal_password" "password" .sealPassword,
   userVariant "unseal_password" .unsealPassword,
   textVariant "authenticate" "service" .authenticate,
   textVariant "auth_intent" "service" .authIntent, userVariant "policy_status" .policyStatus,
   ⟨"diagnose", emptyRest .diagnose⟩, ⟨"liveness_test", emptyRest .livenessTest⟩,
   userVariant "reseal_user_envelopes" .resealUserEnvelopes, ⟨"probe", emptyRest .probe⟩,
   ⟨"position_sample", emptyRest .positionSample⟩, ⟨"list_profiles", emptyRest .listProfiles⟩,
   ⟨"identify", emptyRest .identify⟩, textVariant "set_profile_name" "name" .setProfileName,
   userVariant "delete_profile" .deleteProfile,
   secretVariant "save_recovery" "passphrase" .saveRecovery,
   secretVariant "restore_from_recovery" "passphrase" .restoreFromRecovery]

def request : JsonCodec Request where
  write req := .obj (("op", .str (requestKind req)) :: requestFields req)
  read := readTagged "op" requestVariants

/-! ### Requests read back -/

theorem readsBack_secretBytes (b : Bytes) : secretBytes.ReadsBack b :=
  readsBack_list fun x _ => readsBack_byte x

section Request

variable {entries : List (String × JsonValue)}

end Request

end Linhello.Common.Wire
