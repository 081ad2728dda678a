import Linhello.Tpm.Operations
import Mathlib.Logic.Function.Basic
/-!
# An ideal TPM and the machine around it

What the operations do: an object loads only under the key it is wrapped under, a
session's digest is what was replayed in it, a secret comes out only in a session
whose digest is the object's policy. `Choices` fixes what a TPM is free to choose;
with faults, an operation may also fail.
-/

namespace Linhello.Tpm

open Common Effect Host

/-! ## State -/

inductive Loaded
  /-- A storage key, and the auth value the library knows for the handle. -/
  | storage (k : StorageKey) (auth : Option Bytes)
  | sealed (o : SealedObject)
  | external (area : Public)

structure Session where
  trial : Bool
  digest : Bytes

/-- Firmware, registers, files and the persistent keys of the TPM. -/
structure System where
  firmware : String → Bool
  efivar : String → Option Bytes
  pcr : Nat → Bytes
  pcr_length : ∀ i, (pcr i).length = 32
  file : (a : Artifact) → Option a.Data
  persistent : Nat → Option StorageKey

/-- The system, and the transient objects and sessions with the next free handle. -/
structure Machine where
  sys : System
  next : Nat
  object : Nat → Option Loaded
  session : Nat → Option Session

def System.setFile (y : System) (a : Artifact) (d : Option a.Data) : System :=
  { y with file := Function.update y.file a d }

def System.setPersistent (y : System) (h : Nat) (k : StorageKey) : System :=
  { y with persistent := Function.update y.persistent h (some k) }

namespace Machine

variable (m : Machine)

def setFile (a : Artifact) (d : Option a.Data) : Machine := { m with sys := m.sys.setFile a d }

def setPersistent (h : Nat) (k : StorageKey) : Machine :=
  { m with sys := m.sys.setPersistent h k }

def give (l : Loaded) : Machine :=
  { m with next := m.next + 1, object := Function.update m.object m.next (some l) }

def openSession (trial : Bool) : Machine :=
  { m with next := m.next + 1,
           session :=
             Function.update m.session m.next (some { trial := trial, digest := zeroDigest }) }

def setObject (h : Nat) (l : Loaded) : Machine :=
  { m with object := Function.update m.object h (some l) }

def setDigest (h : Nat) (x : Session) (digest : Bytes) : Machine :=
  { m with session := Function.update m.session h (some { x with digest := digest }) }

def flush (h : Nat) : Machine :=
  { m with object := Function.update m.object h none, session := Function.update m.session h none }

@[simp] theorem give_sys (l : Loaded) : (m.give l).sys = m.sys := rfl

@[simp] theorem give_next (l : Loaded) : (m.give l).next = m.next + 1 := rfl

@[simp] theorem give_session (l : Loaded) : (m.give l).session = m.session := rfl

@[simp] theorem give_object (l : Loaded) :
    (m.give l).object = Function.update m.object m.next (some l) := rfl

@[simp] theorem openSession_sys (trial : Bool) : (m.openSession trial).sys = m.sys := rfl

@[simp] theorem openSession_next (trial : Bool) : (m.openSession trial).next = m.next + 1 := rfl

@[simp] theorem openSession_object (trial : Bool) : (m.openSession trial).object = m.object := rfl

@[simp] theorem openSession_session (trial : Bool) :
    (m.openSession trial).session =
      Function.update m.session m.next (some { trial := trial, digest := zeroDigest }) := rfl

@[simp] theorem setDigest_sys (h : Nat) (x : Session) (d : Bytes) :
    (m.setDigest h x d).sys = m.sys :=
  rfl

@[simp] theorem setDigest_next (h : Nat) (x : Session) (d : Bytes) :
    (m.setDigest h x d).next = m.next := rfl

@[simp] theorem setDigest_object (h : Nat) (x : Session) (d : Bytes) :
    (m.setDigest h x d).object = m.object := rfl

@[simp] theorem setDigest_session (h : Nat) (x : Session) (d : Bytes) :
    (m.setDigest h x d).session = Function.update m.session h (some { x with digest := d }) := rfl

@[simp] theorem flush_sys (h : Nat) : (m.flush h).sys = m.sys := rfl

@[simp] theorem flush_next (h : Nat) : (m.flush h).next = m.next := rfl

@[simp] theorem flush_object (h : Nat) : (m.flush h).object = Function.update m.object h none := rfl

@[simp] theorem flush_session (h : Nat) : (m.flush h).session = Function.update m.session h none :=
  rfl

end Machine

/-! ## Answers -/

variable (P : Platform)

/-- What a TPM and a random generator may choose. -/
structure Choices where
  blobs : Bytes → Bytes → Bytes → Except String (Public × Bytes)
  blobs_ok : ∀ parent policy secret area priv, blobs parent policy secret = .ok (area, priv) →
    P.object area priv = some { parent := parent, authPolicy := policy, secret := secret } ∧
      priv.length ≤ P.maxPrivate
  key : Except String PrivateKey

variable {P} in
/-- The answer of an operation that does not fail for no reason, and what it leaves. -/
def respond (ch : Choices P) (m : Machine) : (o : Op) → o.Ans × Machine
  | .pathExists a => ((m.sys.file a).isSome, m)
  | .readFile a =>
      match m.sys.file a with
      | none => (.error .notFound, m)
      | some d => (.ok d, m)
  | .writeFile a d => (.ok (), m.setFile a (some d))
  | .setPermissions _ _ | .createConfigRoot => (.ok (), m)
  | .renameSignatures =>
      match m.sys.file .signaturesTmp with
      | none => (.error .notFound, m)
      | some d => (.ok (), (m.setFile .signatures (some d)).setFile .signaturesTmp none)
  | .firmwarePath path => (m.sys.firmware path, m)
  | .readEfivar name => (m.sys.efivar name, m)
  | .generateKey => (ch.key, m)
  | .openContext _ | .trSessSetAttributes _ => (.ok (), m)
  | .trFromTpmPublic h =>
      match m.sys.persistent h with
      | none => (.error "TPM_RC_HANDLE", m)
      | some k => (.ok m.next, m.give (.storage k none))
  | .readPublic h =>
      match m.object h with
      | some (.storage k _) => (.ok k.area, m)
      | _ => (.error "TPM_RC_HANDLE", m)
  | .trSetAuth h auth =>
      match m.object h with
      | some (.storage k _) => (.ok (), m.setObject h (.storage k (some auth)))
      | _ => (.error "TPM_RC_HANDLE", m)
  | .createPrimary template => (.ok m.next, m.give (.storage (P.primary template) (some [])))
  | .evictControl h persistent =>
      match m.object h, m.sys.persistent persistent with
      | some (.storage k _), none =>
          (.ok m.next, (m.setPersistent persistent k).give (.storage k none))
      | _, _ => (.error "TPM_RC_NV_DEFINED", m)
  | .flushContext h => (.ok (), m.flush h)
  | .startAuthSession trial => (.ok (some m.next), m.openSession trial)
  | .pcrRead pcrs => (.ok ((selected pcrs).map m.sys.pcr), m)
  | .policyPcr h pcrs =>
      match m.session h with
      | none => (.error "TPM_RC_HANDLE", m)
      | some x => (.ok (), m.setDigest h x (extendPcr P.H x.digest m.sys.pcr pcrs))
  | .policyGetDigest h =>
      match m.session h with
      | none => (.error "TPM_RC_HANDLE", m)
      | some x => (.ok x.digest, m)
  | .create parent template secret =>
      match m.object parent with
      | some (.storage k auth) =>
          if auth = some k.auth then (ch.blobs k.seed template.authPolicy secret, m)
          else (.error "TPM_RC_AUTH_FAIL", m)
      | _ => (.error "TPM_RC_TYPE", m)
  | .load parent priv area =>
      match m.object parent, P.object area priv with
      | some (.storage k auth), some o =>
          if auth = some k.auth ∧ o.parent = k.seed then (.ok m.next, m.give (.sealed o))
          else (.error "TPM_RC_INTEGRITY", m)
      | _, _ => (.error "TPM_RC_INTEGRITY", m)
  | .loadExternalPublic area => (.ok m.next, m.give (.external area))
  | .trGetName h =>
      match m.object h with
      | some (.external area) => (.ok (P.name area), m)
      | _ => (.error "TPM_RC_HANDLE", m)
  | .verifySignature h digest signature =>
      match m.object h with
      | some (.external area) =>
          match area with
          | .rsa _ _ _ parameters unique =>
              if P.rsa.verify { n := unique, e := parameters.exponent } digest signature then
                (.ok { keyName := P.name area, digest := digest }, m)
              else (.error "TPM_RC_SIGNATURE", m)
          | _ => (.error "TPM_RC_KEY", m)
      | _ => (.error "TPM_RC_HANDLE", m)
  | .policyAuthorize h approved policyRef keyName ticket =>
      match m.session h with
      | none => (.error "TPM_RC_HANDLE", m)
      | some x =>
          if x.digest = approved ∧ ticket.keyName = keyName ∧
              ticket.digest = authorizationHash P.H approved policyRef then
            (.ok (), m.setDigest h x (authorizeDigest P.H keyName policyRef))
          else (.error "TPM_RC_VALUE", m)
  | .unsealObject handle session =>
      match m.object handle, m.session session with
      | some (.sealed o), some x =>
          if x.trial = false ∧ x.digest = o.authPolicy then (.ok o.secret, m)
          else (.error "TPM_RC_POLICY_FAIL", m)
      | _, _ => (.error "TPM_RC_HANDLE", m)

/-- A fault: an error and no effect, except that a failed write may leave anything.
Firmware variables read as they are. -/
def Fails (m : Machine) : (o : Op) → o.Ans → Machine → Prop
  | .pathExists _, r, m' => r = false ∧ m' = m
  | .writeFile a _, r, m' => (∃ e, r = .error e) ∧ (m' = m ∨ ∃ d, m' = m.setFile a (some d))
  | .firmwarePath _, _, _ | .readEfivar _, _, _ => False
  | .readFile _, r, m' | .setPermissions _ _, r, m' | .createConfigRoot, r, m'
  | .renameSignatures, r, m' | .generateKey, r, m' | .openContext _, r, m'
  | .trFromTpmPublic _, r, m' | .readPublic _, r, m' | .trSetAuth _ _, r, m'
  | .createPrimary _, r, m' | .evictControl _ _, r, m' | .flushContext _, r, m'
  | .startAuthSession _, r, m' | .trSessSetAttributes _, r, m' | .pcrRead _, r, m'
  | .policyPcr _ _, r, m' | .policyGetDigest _, r, m' | .create _ _ _, r, m' | .load _ _ _, r, m'
  | .loadExternalPublic _, r, m' | .trGetName _, r, m' | .verifySignature _ _ _, r, m'
  | .policyAuthorize _ _ _ _ _, r, m' | .unsealObject _ _, r, m' =>
      (∃ e, r = .error e) ∧ m' = m

def Step (faulty : Prop) : Semantics tpm Machine := fun m o r m' =>
  (∃ ch : Choices P, (r, m') = respond ch m o) ∨ faulty ∧ Fails m o r m'

/-! ## What a successful operation did -/

section Steps

variable {P} {faulty : Prop} {m m' : Machine}

theorem step_readFile_ok {a : Artifact} {d : a.Data}
    (hs : Step P faulty m (.readFile a) (.ok d) m') : m.sys.file a = some d ∧ m' = m := by
  obtain ⟨ch, hr⟩ | ⟨-, ⟨e, he⟩, -⟩ := hs
  · rw [respond] at hr
    split at hr
    · cases hr
    · rename_i x hfile
      obtain ⟨hd, rfl⟩ := Prod.mk.inj hr
      rw [hfile, Except.ok.inj hd]
      exact ⟨rfl, rfl⟩
  · cases he

theorem step_writeFile_ok {a : Artifact} {d : a.Data}
    (hs : Step P faulty m (.writeFile a d) (.ok ()) m') : m' = m.setFile a (some d) := by
  obtain ⟨ch, hr⟩ | ⟨-, ⟨e, he⟩, -⟩ := hs
  · exact (Prod.mk.inj hr).2
  · cases he

theorem step_renameSignatures_ok (hs : Step P faulty m .renameSignatures (.ok ()) m') :
    ∃ d, m.sys.file .signaturesTmp = some d ∧
      m' = (m.setFile .signatures (some d)).setFile .signaturesTmp none := by
  obtain ⟨ch, hr⟩ | ⟨-, ⟨e, he⟩, -⟩ := hs
  · rw [respond] at hr
    split at hr
    · cases hr
    · rename_i d hfile
      exact ⟨d, hfile, (Prod.mk.inj hr).2⟩
  · cases he

theorem step_pathExists {a : Artifact} {r : Bool} (hs : Step P faulty m (.pathExists a) r m') :
    m' = m ∧ (r = true → (m.sys.file a).isSome = true) := by
  obtain ⟨ch, hr⟩ | ⟨-, rfl, rfl⟩ := hs
  · obtain ⟨rfl, rfl⟩ := Prod.mk.inj hr
    exact ⟨rfl, id⟩
  · exact ⟨rfl, fun h => by cases h⟩

theorem step_readEfivar {name : String} {r : Option Bytes}
    (hs : Step P faulty m (.readEfivar name) r m') : r = m.sys.efivar name ∧ m' = m := by
  obtain ⟨ch, hr⟩ | ⟨-, hfails⟩ := hs
  · exact Prod.mk.inj hr
  · exact hfails.elim

theorem step_openContext {tcti : String} {r : Except String Unit}
    (hs : Step P faulty m (.openContext tcti) r m') : m' = m := by
  obtain ⟨ch, hr⟩ | ⟨-, -, rfl⟩ := hs
  · exact (Prod.mk.inj hr).2
  · rfl

theorem step_trSessSetAttributes {h : Nat} {r : Except String Unit}
    (hs : Step P faulty m (.trSessSetAttributes h) r m') : m' = m := by
  obtain ⟨ch, hr⟩ | ⟨-, -, rfl⟩ := hs
  · exact (Prod.mk.inj hr).2
  · rfl

theorem step_flushContext {h : Nat} {r : Except String Unit}
    (hs : Step P faulty m (.flushContext h) r m') : m' = m ∨ m' = m.flush h := by
  obtain ⟨ch, hr⟩ | ⟨-, -, rfl⟩ := hs
  · exact .inr (Prod.mk.inj hr).2
  · exact .inl rfl

theorem step_startAuthSession_ok {trial : Bool} {h : Nat}
    (hs : Step P faulty m (.startAuthSession trial) (.ok (some h)) m') :
    h = m.next ∧ m' = m.openSession trial := by
  obtain ⟨ch, hr⟩ | ⟨-, ⟨e, he⟩, -⟩ := hs
  · obtain ⟨hh, rfl⟩ := Prod.mk.inj hr
    exact ⟨Option.some.inj (Except.ok.inj hh), rfl⟩
  · cases he

theorem step_policyPcr_ok {h : Nat} {pcrs : List Nat}
    (hs : Step P faulty m (.policyPcr h pcrs) (.ok ()) m') :
    ∃ x, m.session h = some x ∧ m' = m.setDigest h x (extendPcr P.H x.digest m.sys.pcr pcrs) := by
  obtain ⟨ch, hr⟩ | ⟨-, ⟨e, he⟩, -⟩ := hs
  · rw [respond] at hr
    split at hr
    · cases hr
    · rename_i x hsession
      exact ⟨x, hsession, (Prod.mk.inj hr).2⟩
  · cases he

theorem step_policyGetDigest_ok {h : Nat} {digest : Bytes}
    (hs : Step P faulty m (.policyGetDigest h) (.ok digest) m') :
    ∃ x, m.session h = some x ∧ digest = x.digest ∧ m' = m := by
  obtain ⟨ch, hr⟩ | ⟨-, ⟨e, he⟩, -⟩ := hs
  · rw [respond] at hr
    split at hr
    · cases hr
    · rename_i x hsession
      obtain ⟨hd, rfl⟩ := Prod.mk.inj hr
      exact ⟨x, hsession, Except.ok.inj hd, rfl⟩
  · cases he

/-- Sealed blobs hold the secret under the template's policy. -/
theorem step_create_ok {parent : Nat} {policy secret priv : Bytes} {area : Public}
    (hs : Step P faulty m (.create parent (sealedTemplate policy) secret) (.ok (area, priv)) m') :
    ∃ k, m.object parent = some (.storage k (some k.auth)) ∧
      P.object area priv = some { parent := k.seed, authPolicy := policy, secret := secret } ∧
      priv.length ≤ P.maxPrivate ∧ m' = m := by
  obtain ⟨ch, hr⟩ | ⟨-, ⟨e, he⟩, -⟩ := hs
  · rw [respond] at hr
    split at hr
    · rename_i k auth hobject
      split at hr
      · rename_i hauth
        obtain ⟨hblobs, rfl⟩ := Prod.mk.inj hr
        obtain ⟨hsealed, hlen⟩ := ch.blobs_ok _ _ _ _ _ hblobs.symm
        exact ⟨k, hauth ▸ hobject, hsealed, hlen, rfl⟩
      · cases hr
    · cases hr
  · cases he

theorem step_load_ok {parent h : Nat} {priv : Bytes} {area : Public}
    (hs : Step P faulty m (.load parent priv area) (.ok h) m') :
    ∃ k o, m.object parent = some (.storage k (some k.auth)) ∧ P.object area priv = some o ∧
      o.parent = k.seed ∧ h = m.next ∧ m' = m.give (.sealed o) := by
  obtain ⟨ch, hr⟩ | ⟨-, ⟨e, he⟩, -⟩ := hs
  · rw [respond] at hr
    split at hr
    · rename_i k auth o hobject hblobs
      split at hr
      · rename_i hauth
        obtain ⟨rfl, hparent⟩ := hauth
        obtain ⟨hh, rfl⟩ := Prod.mk.inj hr
        exact ⟨k, o, hobject, hblobs, hparent, Except.ok.inj hh, rfl⟩
      · cases hr
    · cases hr
  · cases he

theorem step_loadExternalPublic_ok {area : Public} {h : Nat}
    (hs : Step P faulty m (.loadExternalPublic area) (.ok h) m') :
    h = m.next ∧ m' = m.give (.external area) := by
  obtain ⟨ch, hr⟩ | ⟨-, ⟨e, he⟩, -⟩ := hs
  · obtain ⟨hh, rfl⟩ := Prod.mk.inj hr
    exact ⟨Except.ok.inj hh, rfl⟩
  · cases he

theorem step_trGetName_ok {h : Nat} {name : Bytes}
    (hs : Step P faulty m (.trGetName h) (.ok name) m') :
    ∃ area, m.object h = some (.external area) ∧ name = P.name area ∧ m' = m := by
  obtain ⟨ch, hr⟩ | ⟨-, ⟨e, he⟩, -⟩ := hs
  · rw [respond] at hr
    split at hr
    · rename_i area hobject
      obtain ⟨hn, rfl⟩ := Prod.mk.inj hr
      exact ⟨area, hobject, Except.ok.inj hn, rfl⟩
    · cases hr
  · cases he

/-- A ticket is made for a key whose signature over the digest verifies. -/
theorem step_verifySignature_ok {h : Nat} {digest signature : Bytes} {ticket : Ticket}
    (hs : Step P faulty m (.verifySignature h digest signature) (.ok ticket) m') :
    ∃ attributes nameHash policy parameters unique,
      m.object h = some (.external (.rsa attributes nameHash policy parameters unique)) ∧
      P.rsa.verify { n := unique, e := parameters.exponent } digest signature = true ∧
      ticket = { keyName := P.name (.rsa attributes nameHash policy parameters unique),
                 digest := digest } ∧ m' = m := by
  obtain ⟨ch, hr⟩ | ⟨-, ⟨e, he⟩, -⟩ := hs
  · rw [respond] at hr
    split at hr
    · rename_i area hobject
      split at hr
      · rename_i attributes nameHash policy parameters unique
        split at hr
        · rename_i hverify
          obtain ⟨ht, rfl⟩ := Prod.mk.inj hr
          exact ⟨_, _, _, _, _, hobject, hverify, Except.ok.inj ht, rfl⟩
        · cases hr
      · cases hr
    · cases hr
  · cases he

theorem step_policyAuthorize_ok {h : Nat} {approved policyRef keyName : Bytes} {ticket : Ticket}
    (hs : Step P faulty m (.policyAuthorize h approved policyRef keyName ticket) (.ok ()) m') :
    ∃ x, m.session h = some x ∧ x.digest = approved ∧ ticket.keyName = keyName ∧
      ticket.digest = authorizationHash P.H approved policyRef ∧
      m' = m.setDigest h x (authorizeDigest P.H keyName policyRef) := by
  obtain ⟨ch, hr⟩ | ⟨-, ⟨e, he⟩, -⟩ := hs
  · rw [respond] at hr
    split at hr
    · cases hr
    · rename_i x hsession
      split at hr
      · rename_i hchecks
        obtain ⟨hdigest, hname, hticket⟩ := hchecks
        exact ⟨x, hsession, hdigest, hname, hticket, (Prod.mk.inj hr).2⟩
      · cases hr
  · cases he

/-- A secret comes out in a session with the object's policy. -/
theorem step_unsealObject_ok {handle session : Nat} {secret : Bytes}
    (hs : Step P faulty m (.unsealObject handle session) (.ok secret) m') :
    ∃ o x, m.object handle = some (.sealed o) ∧ m.session session = some x ∧
      x.digest = o.authPolicy ∧ secret = o.secret ∧ m' = m := by
  obtain ⟨ch, hr⟩ | ⟨-, ⟨e, he⟩, -⟩ := hs
  · rw [respond] at hr
    split at hr
    · rename_i o x hobject hsession
      split at hr
      · rename_i hpolicy
        obtain ⟨hsecret, rfl⟩ := Prod.mk.inj hr
        exact ⟨o, x, hobject, hsession, hpolicy.2, Except.ok.inj hsecret, rfl⟩
      · cases hr
    · cases hr
  · cases he

theorem step_surroundings {o : Op} {r : o.Ans} (hs : Step P faulty m o r m') :
    m'.sys.pcr = m.sys.pcr ∧ m'.sys.efivar = m.sys.efivar ∧ m'.sys.firmware = m.sys.firmware := by
  obtain ⟨ch, hr⟩ | ⟨-, hfails⟩ := hs
  · have hm : m' = (respond ch m o).2 := congrArg Prod.snd hr
    rw [hm]
    unfold respond
    repeat' split
    all_goals exact ⟨rfl, rfl, rfl⟩
  · cases o with
    | writeFile a d =>
        obtain ⟨-, rfl | ⟨d', rfl⟩⟩ := hfails
        · exact ⟨rfl, rfl, rfl⟩
        · exact ⟨rfl, rfl, rfl⟩
    | firmwarePath _ => exact hfails.elim
    | readEfivar _ => exact hfails.elim
    | _ =>
        obtain ⟨-, rfl⟩ := hfails
        exact ⟨rfl, rfl, rfl⟩

theorem setFile_file_of_ne {y : System} {a b : Artifact} {d : Option b.Data} (h : a ≠ b) :
    (y.setFile b d).file a = y.file a :=
  Function.update_of_ne h _ _

@[simp] theorem setFile_file_self {y : System} {a : Artifact} {d : Option a.Data} :
    (y.setFile a d).file a = d :=
  Function.update_self _ _ _

private theorem respond_file {ch : Choices P} {o : Op} {a : Artifact} (ha : o.mayWrite a = false) :
    (respond ch m o).2.sys.file a = m.sys.file a := by
  unfold respond
  split
  case h_3 => exact setFile_file_of_ne (of_decide_eq_false ha)
  case h_6 =>
    have hne := not_or.1 (of_decide_eq_false ha)
    split
    · rfl
    · exact (setFile_file_of_ne hne.2).trans (setFile_file_of_ne hne.1)
  all_goals
    repeat' split
    all_goals rfl

theorem step_file {o : Op} {r : o.Ans} {a : Artifact} (hs : Step P faulty m o r m')
    (ha : o.mayWrite a = false) : m'.sys.file a = m.sys.file a := by
  obtain ⟨ch, hr⟩ | ⟨-, hfails⟩ := hs
  · have hm : m' = (respond ch m o).2 := congrArg Prod.snd hr
    rw [hm, respond_file ha]
  · cases o with
    | writeFile b d =>
        obtain ⟨-, rfl | ⟨d', rfl⟩⟩ := hfails
        · rfl
        · exact setFile_file_of_ne (of_decide_eq_false ha)
    | firmwarePath _ => exact hfails.elim
    | readEfivar _ => exact hfails.elim
    | _ =>
        obtain ⟨-, rfl⟩ := hfails
        rfl

end Steps

end Linhello.Tpm
