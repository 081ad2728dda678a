import Linhello.Biometrics.Pipeline
import Linhello.Host.World
/-!
# A simulated host

A host on which no operation fails, and stand-ins for the platform's libraries:
with them a program of the daemon can be evaluated. The stand-ins satisfy the
laws the development assumes of the real libraries (`simulatedCrypto`), and the
simulated host always has an answer (`Script.answer_allowed`).
-/

namespace Linhello.Host

open Common Linhello.Core Effect Liveness Biometrics

/-! ## A host on which nothing fails -/

/-- What the surroundings of the daemon answer: TPM, cameras, accounts, firmware. -/
structure Script where
  sealWith : Bytes → SealedEnvelope
  random : Nat → Bytes
  rgb : String
  ir : Option String
  burst : List Frame
  irFrame : Except LinuxHelloError GrayImage
  identity : String → Option DeviceIdentity
  text : String → Option String
  link : String → Option String
  uid : String → Option Nat

/-- The answer to an operation when every file operation succeeds that can. -/
def Script.answer (sc : Script) (sealed : SealedEnvelope → Option Bytes) : World.Responder
  | w, .pathExists p => (w.file p).isSome
  | w, .read p =>
      match w.file p with
      | some d => .ok d
      | none => .error .notFound
  | w, .write p _ => if w.hasDir p.parent then .ok () else .error .notFound
  | w, .setPermissions p | w, .removeFile p =>
      if (w.file p).isSome then .ok () else .error .notFound
  | _, .createDirAll _ => .ok ()
  | w, .readRoot => .ok w.users.keys
  | w, .readUserDir u => if (w.users.lookup u).isSome then .ok (w.dir u).keys else .error .notFound
  | w, .removeDir u =>
      if (w.users.lookup u).isSome then
        if (w.dir u).keys = [] then .ok ()
        else .error (.other "Directory not empty (os error 39)")
      else .error .notFound
  | w, .templateLen u legacy =>
      match w.templateSize u legacy with
      | some n => .ok n
      | none => .error .notFound
  | w, .cacheGet u => w.cache.lookup u
  | _, .cacheInsert _ _ | _, .cacheRemove _ => ()
  | _, .tpmSeal s => .ok (sc.sealWith s)
  | _, .tpmUnseal env =>
      match sealed env with
      | some s => .ok s
      | none => .error (.tpm "integrity check failed")
  | _, .detectSecurityLevel => .basic
  | _, .diagnosePcrs _ => .ok []
  | _, .randomBytes n => sc.random n
  | _, .rgbDevice => sc.rgb
  | _, .irDevice => sc.ir
  | _, .captureBurst _ _ => .ok sc.burst
  | _, .captureIrFrom _ => sc.irFrame
  | _, .enumerateCameras => [{ path := sc.rgb, privacy := some false }]
  | _, .canonicalize p => some p
  | _, .probeCamera p => sc.identity p
  | _, .readText p => sc.text p
  | _, .readLink p => sc.link p
  | _, .uidForName u => sc.uid u
  | _, .bootMode => .unknown
  | _, .secureBoot => false
  | _, .loaderIdentity => none
  | _, .probeCapabilities => ⟨[]⟩
  | _, .positionSample => .error (.biometrics "no face detected")

/-- An operation other than a refused seal has an allowed answer without any fault. -/
theorem Script.answer_allowed_of {sc : Script} {sealed : SealedEnvelope → Option Bytes} {o : Op}
    (hseal : ∀ s, o = .tpmSeal s → sealed (sc.sealWith s) = some s)
    (hrandom : ∀ n, (sc.random n).length = n) (w : World) :
    w.allows sealed .none o (sc.answer sealed w o) = true := by
  cases o with
  | read p =>
      cases h : w.file p <;> simp [World.allows, answer, ioAnswer, h]
  | write p d =>
      cases h : w.hasDir p.parent <;> simp [World.allows, answer, ioAnswer, h]
  | setPermissions p =>
      cases h : w.file p <;> simp [World.allows, answer, ioAnswer, h]
  | removeFile p =>
      cases h : w.file p <;> simp [World.allows, answer, ioAnswer, h]
  | readRoot => simp [World.allows, answer, ioAnswer, List.isPerm_iff]
  | readUserDir u =>
      cases h : w.users.lookup u <;> simp [World.allows, answer, ioAnswer, h, List.isPerm_iff]
  | removeDir u =>
      cases h : w.users.lookup u with
      | none => simp [World.allows, answer, ioAnswer, h]
      | some d =>
          by_cases hd : (w.dir u).keys = [] <;> simp [World.allows, answer, ioAnswer, h, hd]
  | templateLen u legacy =>
      cases h : w.templateSize u legacy <;> simp [World.allows, answer, ioAnswer, h]
  | tpmSeal s => simp [World.allows, answer, hseal s rfl]
  | tpmUnseal env =>
      cases h : sealed env <;> simp [World.allows, answer, h]
  | randomBytes n => simp [World.allows, answer, hrandom]
  | _ => simp [World.allows, answer, ioAnswer]

/-- No operation is ever stuck: without any fault there is an allowed answer to
it, as long as the TPM seals what it can unseal. -/
theorem Script.answer_allowed {sc : Script} {sealed : SealedEnvelope → Option Bytes}
    (hseal : ∀ s, sealed (sc.sealWith s) = some s) (hrandom : ∀ n, (sc.random n).length = n)
    (w : World) (o : Op) : w.allows sealed .none o (sc.answer sealed w o) = true :=
  Script.answer_allowed_of (fun s _ => hseal s) hrandom w

/-- Run a program for at most `n` operations against the simulated host. -/
def Script.run {α : Type} (sc : Script) (sealed : SealedEnvelope → Option Bytes) (flt : Faults)
    (n : Nat) (p : Proc α) (w : World) : Option (α × World) :=
  execute (World.step sealed flt) p w (List.replicate n (sc.answer sealed))

theorem Script.exec_of_run {α : Type} (sc : Script) {sealed : SealedEnvelope → Option Bytes}
    {flt : Faults} (n : Nat) {p : Proc α} {w : World} {a : α}
    (h : (sc.run sealed flt n p w).map Prod.fst = some a) :
    ∃ w', Exec (World.Step sealed flt) p w a w' := by
  obtain ⟨⟨a', w'⟩, hrun, rfl⟩ := Option.map_eq_some_iff.1 h
  exact ⟨w', exec_of_execute (fun _ _ _ _ _ => World.step_sound) hrun⟩

/-! ## Libraries -/

/-- Exact on the arguments the runs below use: squares of rationals for `sqrt`,
0 and the large negative numbers whose exponential underflows for `exp`. -/
def simulatedFloats : FloatLib where
  sqrt q := mkRat (Nat.sqrt q.num.toNat) (Nat.sqrt q.den)
  exp q := if q = 0 then 1 else 0
  parse _ := none
  fixed _ _ := ""

/-- The tag depends on the key, so that a wrong key is noticed. -/
def simulatedTag (key : Bytes) : Bytes := (key ++ List.replicate 16 0).take 16

theorem length_simulatedTag (key : Bytes) : (simulatedTag key).length = 16 := by
  simp [simulatedTag]

def simulatedOpen (key _nonce ct : Bytes) : Option Bytes :=
  if ct.drop (ct.length - 16) = simulatedTag key then some (ct.take (ct.length - 16)) else none

def simulatedEncode (b : Bytes) : String := String.ofList (b.map fun x => Char.ofNat x.toNat)

def simulatedDecode (s : String) : Except String Bytes :=
  .ok (s.toList.map fun c => UInt8.ofNat c.toNat)

theorem simulatedDecode_encode (b : Bytes) : simulatedDecode (simulatedEncode b) = .ok b := by
  have hbyte : ∀ x : UInt8, UInt8.ofNat (Char.ofNat x.toNat).toNat = x := by
    intro x
    have hvalid : x.toNat.isValidChar := .inl (lt_trans x.toNat_lt (by decide))
    have hchar : (Char.ofNat x.toNat).toNat = x.toNat := by
      rw [Char.ofNat, dif_pos hvalid]
      rfl
    rw [hchar, UInt8.ofNat_toNat]
  simp [simulatedDecode, simulatedEncode, Function.comp_def, hbyte]

def simulatedCrypto : CryptoLib where
  aeadSeal key _ m := some (m ++ simulatedTag key)
  aeadOpen := simulatedOpen
  argon2 passphrase _ _ _ _ := .ok ((passphrase ++ List.replicate 32 0).take 32)
  encode := simulatedEncode
  decode := simulatedDecode
  aeadOpen_aeadSeal := by
    intro k n m c h
    obtain rfl := Option.some.inj h
    have hlen : (m ++ simulatedTag k).length - 16 = m.length := by
      rw [List.length_append, length_simulatedTag]
      omega
    rw [simulatedOpen, hlen, List.drop_left, List.take_left, if_pos rfl]
  length_aeadSeal := by
    intro k n m c h
    obtain rfl := Option.some.inj h
    rw [List.length_append, length_simulatedTag]
  decode_encode := simulatedDecode_encode

/-! ## A process -/

def unitVector (axis : Nat) : List F32 :=
  (List.range EMBEDDING_DIM).map fun i => if i = axis then ⟨0x3F800000⟩ else ⟨0⟩

/-- A face that looks straight at the camera. -/
def frontalFace (b : BBox) : Face where
  score := 9 / 10
  bbox := b
  landmarks :=
    { leftEye := ⟨7, 7⟩, rightEye := ⟨13, 7⟩, nose := ⟨10, 10⟩, leftMouth := ⟨8, 13⟩,
      rightMouth := ⟨12, 13⟩ }

/-- Nothing set in the environment, both anti-spoof models absent but for the
primary one, which calls every frame live. Every frame shows one face, with the
same embedding. -/
def simulatedProcess : Process where
  env _ := none
  fl := simulatedFloats
  cl := simulatedCrypto
  detector := .ok fun _ => .ok [frontalFace ⟨5, 5, 15, 15⟩]
  align f _ := .ok f
  embedder := .ok fun _ => .ok (unitVector 0)
  modelExists p := p == DEFAULT_ANTISPOOF_MODEL
  loadSession _ := .ok fun _ _ _ => .ok [-200, 0, -200]
  thresholdSetting := none

/-- Envelopes whose private blob is the secret itself. -/
def simulatedSeal (secret : Bytes) : SealedEnvelope where
  version := CURRENT_VERSION
  mode := .basic
  pcrs := []
  policy := .pcrLiteral
  pub := []
  priv := secret
  pcrValues := []

def simulatedUnseal (env : SealedEnvelope) : Option Bytes := some env.priv

theorem simulatedUnseal_seals (secret : Bytes) : ∃ env, simulatedUnseal env = some secret :=
  ⟨simulatedSeal secret, rfl⟩

/-- A laptop with one USB camera and no IR camera. -/
def simulatedScript : Script where
  sealWith := simulatedSeal
  random n := List.replicate n 7
  rgb := "/dev/video0"
  ir := none
  burst := List.replicate 5 (Image.fromPixel 20 20 ⟨200, 150, 130⟩)
  irFrame := .error (.biometrics "no IR camera")
  identity _ := none
  text _ := none
  link _ := some "uvcvideo"
  uid _ := some 1000

def emptyWorld : World where
  root := ∅
  users := ∅
  cache := ∅

@[simp] theorem file_emptyWorld (p : Path) : emptyWorld.file p = none := by
  cases p <;> rfl

def simulatedKey : Bytes := List.replicate 32 1

def simulatedSecret : Bytes := [112, 119]

/-- One sample, encrypted under the simulated key. -/
def simulatedTemplate : Bytes :=
  List.replicate 12 7 ++ (embeddingToBytes (unitVector 0) ++ simulatedTag simulatedKey)

/-- A user with one enrolled sample, a sealed password and a cached key, on a host
with a sealed keyring secret. -/
def enrolledWorld (user : String) : World :=
  let w := emptyWorld
    |>.set (.root .tpmEnvelope) (.value (simulatedSeal simulatedSecret))
    |>.set (.user user .passwordEnvelope) (.value (simulatedSeal simulatedSecret))
    |>.set (.user user .templateKeyEnvelope) (.value (simulatedSeal simulatedKey))
    |>.set (.user user .embeddingEnc) simulatedTemplate
  { w with cache := w.cache.insert user simulatedKey }

/-- Run a program for at most `n` operations, and record what it does. -/
def tracedRun {α : Type} (flt : Faults) (answers : World.Responder) (n : Nat) (p : Proc α)
    (w : World) : Option (α × World × List (Event host)) :=
  execute (fun c x o => (World.step simulatedUnseal flt c x.1 o).map fun y =>
    (y.1, y.2, x.2 ++ [⟨o, y.1⟩])) p (w, []) (List.replicate n answers)

theorem exec_of_tracedRun {α : Type} {flt : Faults} {answers : World.Responder} {n : Nat}
    {p : Proc α} {a : α} {w : World} {y : World × List (Event host)}
    (h : tracedRun flt answers n p w = some (a, y)) :
    Exec (recorded (World.Step simulatedUnseal flt)) p (w, []) a y := by
  refine exec_of_execute (fun c x o r z hstep => ?_) h
  obtain ⟨v, hworld, heq⟩ := Option.map_eq_some_iff.1 hstep
  cases heq
  exact ⟨World.step_sound hworld, rfl⟩

end Linhello.Host
