import Linhello.Tpm.Agreement
/-!
# The persistent storage key

`load_or_create_srk` takes whatever lies at the persistent handle for the primary key
it would derive, if its public area looks the same. The seed a key derives its children
from and its auth value do not show there.
-/

namespace Linhello.Tpm

open Common Effect Host
open Linhello.Core (SealedEnvelope)

variable {P : Platform} {m m' m₁ m₂ m₃ : Machine} {secret : Bytes} {env : SealedEnvelope} {h : Nat}
  {k : StorageKey} {p : PolicyPlan}

/-- The handle is taken by a key that `is_linhello_srk` rejects, so each call derives
the primary anew. -/
def Transient (m : Machine) (h : Nat) : Prop :=
  ∃ k, m.sys.persistent h = some k ∧ isLinhelloSrk k.area = false

/-- Registers and files are as before; the persistent handles may have changed. -/
structure SameRest (m m' : Machine) : Prop where
  pcr : m'.sys.pcr = m.sys.pcr
  file : m'.sys.file = m.sys.file

/-- A key that is taken for the storage root key has the primary's children, and no
auth value. -/
def StorageKey.Serves (P : Platform) (k : StorageKey) : Prop :=
  isLinhelloSrk k.area = true → k.seed = (P.primary srkTemplate).seed ∧ k.auth = []

/-- Load an envelope's blobs under the storage root key, as every unseal begins. -/
def loadUnderSrk (P : Platform) (env : SealedEnvelope) : Fallible Unit :=
  withSrk P fun srk => withHandle (loadSealed P srk env) fun _ => pure ()

def Loads (P : Platform) (m : Machine) (env : SealedEnvelope) : Prop :=
  ∀ r m', Exec (Step P False) (loadUnderSrk P env).run m r m' → r = .ok ()

def Yields (P : Platform) (m : Machine) (env : SealedEnvelope) (secret : Bytes) : Prop :=
  ∀ r m', Exec (Step P False) («unseal» P env).run m r m' → r = .ok secret

/-! ## Keys and objects -/

theorem storageKey_occupied (hh : persistentSrkHandle P = .ok h)
    (hk : m.sys.persistent h = some k) :
    m.sys.storageKey P = some (if isLinhelloSrk k.area then k else P.primary srkTemplate) := by
  rw [System.storageKey, hh]
  dsimp only
  rw [hk]

theorem storageKey_empty (hh : persistentSrkHandle P = .ok h) (hk : m.sys.persistent h = none) :
    m.sys.storageKey P = some (P.primary srkTemplate) := by
  rw [System.storageKey, hh]
  dsimp only
  rw [hk]

theorem Transient.storageKey (hh : persistentSrkHandle P = .ok h) (hm : Transient m h) :
    m.sys.storageKey P = some (P.primary srkTemplate) := by
  obtain ⟨k, hk, hforeign⟩ := hm
  rw [storageKey_occupied hh hk, if_neg (by rw [hforeign]; decide)]

/-- A sealed object is a child of the storage key of the system that sealed it. -/
theorem child_of_seal (hseal : Exec (Step P False) (sealWithPlan P secret p).run m (.ok env) m') :
    ∃ o key, P.sealedIn env = some o ∧ env.priv.length ≤ P.maxPrivate ∧
      m.sys.storageKey P = some key ∧ key.auth = [] ∧ o.parent = key.seed := by
  have hliteral : ∀ pcrs, Exec (Step P False) (sealLiteral P secret pcrs).run m (.ok env) m' →
      ∃ o key, P.sealedIn env = some o ∧ env.priv.length ≤ P.maxPrivate ∧
        m.sys.storageKey P = some key ∧ key.auth = [] ∧ o.parent = key.seed := by
    intro pcrs hseal
    obtain ⟨srk, persistent, u, k, hsrk, hk, hobject, hfits, -⟩ := exec_sealLiteral_ok hseal
    obtain ⟨key, hkey, -, hk'⟩ := exec_loadOrCreateSrk_key hsrk
    obtain ⟨rfl, hauth⟩ := Loaded.storage.inj (Option.some.inj (hk.symm.trans hk'))
    exact ⟨_, k, hobject, hfits, hkey, Option.some.inj hauth, rfl⟩
  cases p with
  | literal pcrs => exact hliteral pcrs hseal
  | none => exact hliteral [] hseal
  | authorized pcrs pubkeyPem policyRef =>
      obtain ⟨signer, area, srk, persistent, u, v, k, t, -, -, ht, hsrk, hk, hobject, hfits, -⟩ :=
        exec_sealAuthorized_ok hseal
      obtain ⟨key, hkey, -, hk'⟩ := exec_loadOrCreateSrk_key hsrk
      obtain ⟨rfl, hauth⟩ := Loaded.storage.inj (Option.some.inj (hk.symm.trans hk'))
      rw [ht] at hkey
      exact ⟨_, k, hobject, hfits, hkey, Option.some.inj hauth, rfl⟩

private theorem calm_loadUnderSrk :
    (loadUnderSrk P env).run.Only fun o : Op => o.chooses = false := by
  have hQ : ∀ o : Op, o.Quiet → o.chooses = false := fun _ ho => ho.2
  refine only_withSrk hQ fun srk => ?_
  exact only_withHandle (fun o ho _ => hQ o ho) (quiet_loadSealed.imp hQ) fun _ => only_exceptT_pure

theorem loads_of_sealed {o : SealedObject} (ho : Sealed P m.sys env o) : Loads P m env := by
  intro r m' hexec
  have hr := exec_eval (Choices.fixed P) calm_loadUnderSrk hexec
  have hvalue : (eval (respond (Choices.fixed P)) (loadUnderSrk P env).run m).1 = .ok () :=
    eval_withSealed ho fun _ _ _ => rfl
  rw [← hvalue, ← hr]

/-- What loads is a child of the storage key, and that has no auth value. -/
theorem sealed_of_loads (hloads : Loads P m env) : ∃ o key, P.sealedIn env = some o ∧
    m.sys.storageKey P = some key ∧ key.auth = [] ∧ o.parent = key.seed := by
  have hexec := exec_of_respond (F := False) (Choices.fixed P) (loadUnderSrk P env).run m
  rw [hloads _ _ hexec] at hexec
  obtain ⟨srk, persistent, u, v, hsrk, hbody, -⟩ := exec_withSrk_ok hexec
  obtain ⟨handle, t, x, hload, -, -⟩ := exec_withHandle_ok hbody
  obtain ⟨k, o, hk, hobject, hparent, -⟩ := exec_loadSealed_ok hload
  obtain ⟨key, hkey, -, hk'⟩ := exec_loadOrCreateSrk_key hsrk
  obtain ⟨rfl, hauth⟩ := Loaded.storage.inj (Option.some.inj (hk.symm.trans hk'))
  exact ⟨o, k, hobject, hkey, Option.some.inj hauth, hparent⟩

/-! ## Unsealing elsewhere -/

/-- Seals and unseals act alike on two systems that differ in their persistent keys. -/
theorem Accepted.elsewhere {pubkeyPem : String} {policyRef : Bytes} {signer : SignerKind}
    {key : PublicKey} {o : SealedObject}
    (haccepted : Accepted P m₂.sys env pubkeyPem policyRef signer key secret)
    (hsame : SameRest m₂ m₃) (hobject : P.sealedIn env = some o) (ho : Sealed P m₃.sys env o) :
    Accepted P m₃.sys env pubkeyPem policyRef signer key secret := by
  obtain ⟨o', area, ho', harea, hpolicy, hsecret⟩ := haccepted.genuine
  obtain rfl := Option.some.inj (hobject.symm.trans ho'.object)
  exact ⟨haccepted.classified.congr (congrFun hsame.file _), haccepted.registers, haccepted.parses,
    o, area, ho, harea, hpolicy, hsecret⟩

theorem opens_elsewhere {pubkeyPem : String} {policyRef : Bytes} {signer : SignerKind}
    {key : PublicKey} {sigs : List PcrSignature} {s : PcrSignature}
    (haccepted : Accepted P m₂.sys env pubkeyPem policyRef signer key secret)
    (haccepted₃ : Accepted P m₃.sys env pubkeyPem policyRef signer key secret)
    (hsame : SameRest m₂ m₃) (hsigs : m₂.sys.signaturesFor P signer = .ok sigs)
    (hfind : findForPolicy sigs env.pcrs (pcrPolicy P.H m₂.sys.pcr env.pcrs) = some s)
    (hopens : ∀ r m', Exec (Step P False) (unsealAuthorized P env pubkeyPem policyRef).run m₂ r m' →
      r = .ok secret) :
    ∀ r m', Exec (Step P False) (unsealAuthorized P env pubkeyPem policyRef).run m₃ r m' →
      r = .ok secret := by
  have hvalid := (opens_iff haccepted hsigs hfind).1 hopens
  rw [← hsame.pcr] at hfind hvalid
  apply (opens_iff haccepted₃ _ hfind).2 hvalid
  rw [signaturesFor_congr hsame.file]
  exact hsigs

/-- What unseals where it was sealed unseals with the same registers and files under
any key with the same children. -/
theorem yields_elsewhere {o : SealedObject}
    (hseal : Exec (Step P False) (sealWithPlan P secret p).run m₁ (.ok env) m₂)
    (hsame : SameRest m₂ m₃) (hobject : P.sealedIn env = some o) (ho : Sealed P m₃.sys env o)
    (hyields : Yields P m₂ env secret) : Yields P m₃ env secret := by
  have hliteral : ∀ pcrs, Exec (Step P False) (sealLiteral P secret pcrs).run m₁ (.ok env) m₂ →
      Yields P m₃ env secret := by
    intro pcrs hseal r m' hexec
    obtain ⟨srk, persistent, u, k, -, -, hobject', -, hpcrs, hpolicy, hsupported, -⟩ :=
      exec_sealLiteral_ok hseal
    obtain rfl := Option.some.inj (hobject.symm.trans hobject')
    have hpcr : m₃.sys.pcr = m₁.sys.pcr := hsame.pcr.trans (exec_surroundings hseal).1
    have hvalue : (eval (respond (Choices.fixed P)) (unsealLiteral P env).run m₃).1 =
        .ok secret := by
      apply eval_unsealLiteral ho
      · rw [hpcrs]
        exact hsupported
      · rw [hpcrs]
        by_cases hnone : pcrs = []
        · simp only [if_pos hnone, policyOver]
        · simp only [if_neg hnone, policyOver, hpcr]
    have hr := exec_eval (Choices.fixed P) calm_unseal hexec
    rw [«unseal», hpolicy] at hr
    rw [← hvalue, ← hr]
  cases p with
  | literal pcrs => exact hliteral pcrs hseal
  | none => exact hliteral [] hseal
  | authorized pcrs pubkeyPem policyRef =>
      obtain ⟨signer, key, hsigner, hkey, hpcrs, hpolicy, haccepted, hsigned⟩ :=
        exec_sealAuthorized_accepted hseal
      unfold Yields at hyields ⊢
      rw [«unseal», hpolicy] at hyields ⊢
      dsimp only at hyields ⊢
      have hexec := exec_of_respond (F := False) (Choices.fixed P)
        (unsealAuthorized P env pubkeyPem policyRef).run m₂
      rw [hyields _ _ hexec] at hexec
      obtain ⟨hsigner₂, haccepted₂⟩ := haccepted m₂ (.refl m₂)
      obtain ⟨signer', -, hsigner', hexpected, -⟩ := exec_unsealAuthorized_ok hexec
      obtain rfl := signer_unique rfl hsigner₂ hsigner'
      have haccepted₂ := haccepted₂ (hpcrs.symm.trans hexpected)
      have haccepted₃ := haccepted₂.elsewhere hsame hobject ho
      rcases hsigned with ⟨rfl, -⟩ | ⟨rfl, sigs, sigs', s, -, hsigs', hfind, -⟩
      · have hheal :
            ∀ v, Exec (Step P False) (selfHeal P .systemd env.pcrs policyRef).run m₂ (.ok ()) v →
            v.sys = m₂.sys := by
          rintro v ⟨-, rfl⟩
          rfl
        obtain ⟨sigs, s, -, hsigs, hfind, -⟩ := exec_unsealAuthorized_found hsigner₂ hheal hexec
        exact opens_elsewhere haccepted₂ haccepted₃ hsame hsigs hfind hyields
      · have hpcr := (exec_surroundings hseal).1
        refine opens_elsewhere (s := s) haccepted₂ haccepted₃ hsame hsigs' ?_ hyields
        rw [hpcrs, hpcr]
        exact hfind

/-! ## The occupant of the handle -/

/-- An object of the primary key loads where a key that serves lies at the handle. -/
theorem sealed_beside {o : SealedObject} (hh : persistentSrkHandle P = .ok h)
    (hk : m.sys.persistent h = some k) (hserves : k.Serves P) (hobject : P.sealedIn env = some o)
    (hfits : env.priv.length ≤ P.maxPrivate) (hparent : o.parent = (P.primary srkTemplate).seed) :
    Sealed P m.sys env o := by
  refine ⟨hobject, hfits, _, storageKey_occupied hh hk, ?_⟩
  by_cases hours : isLinhelloSrk k.area = true
  · obtain ⟨hseed, hauth⟩ := hserves hours
    rw [if_pos hours]
    exact ⟨hauth, hparent.trans hseed.symm⟩
  · rw [if_neg hours]
    exact ⟨P.primary_auth _, hparent⟩

/-- What was sealed under a transient key loads and unseals beside the key at the
handle, and what was sealed through the handle loads once it is empty, exactly if that
key serves: the test of its public area does not tell. -/
theorem cached_key_optional_iff (hh : persistentSrkHandle P = .ok h) (k : StorageKey) :
    (∀ m₁ m₂ m₃ secret p env, Transient m₁ h →
      Exec (Step P False) (sealWithPlan P secret p).run m₁ (.ok env) m₂ → SameRest m₂ m₃ →
      m₃.sys.persistent h = some k →
      (Loads P m₃ env ∧ (Yields P m₂ env secret → Yields P m₃ env secret) ↔ k.Serves P)) ∧
    ∀ m₁ m₂ m₃ secret p env, m₁.sys.persistent h = some k →
      Exec (Step P False) (sealWithPlan P secret p).run m₁ (.ok env) m₂ → SameRest m₂ m₃ →
      m₃.sys.persistent h = none → (Loads P m₃ env ↔ k.Serves P) := by
  constructor
  · intro m₁ m₂ m₃ secret p env hm hseal hsame hk
    obtain ⟨o, key, hobject, hfits, hkey, -, hparent⟩ := child_of_seal hseal
    rw [hm.storageKey hh] at hkey
    obtain rfl := Option.some.inj hkey
    constructor
    · rintro ⟨hloads, -⟩ hours
      obtain ⟨o', key, hobject', hkey, hauth, hparent'⟩ := sealed_of_loads hloads
      rw [storageKey_occupied hh hk, if_pos hours] at hkey
      obtain rfl := Option.some.inj hkey
      obtain rfl := Option.some.inj (hobject.symm.trans hobject')
      exact ⟨hparent'.symm.trans hparent, hauth⟩
    · intro hserves
      have ho := sealed_beside hh hk hserves hobject hfits hparent
      exact ⟨loads_of_sealed ho, yields_elsewhere hseal hsame hobject ho⟩
  · intro m₁ m₂ m₃ secret p env hk hseal hsame hempty
    obtain ⟨o, key, hobject, hfits, hkey, hauth, hparent⟩ := child_of_seal hseal
    rw [storageKey_occupied hh hk] at hkey
    constructor
    · intro hloads hours
      obtain ⟨o', key', hobject', hkey', -, hparent'⟩ := sealed_of_loads hloads
      rw [storageKey_empty hh hempty] at hkey'
      rw [if_pos hours] at hkey
      obtain rfl := Option.some.inj hkey
      obtain rfl := Option.some.inj hkey'
      obtain rfl := Option.some.inj (hobject.symm.trans hobject')
      exact ⟨hparent.symm.trans hparent', hauth⟩
    · intro hserves
      have hseed : o.parent = (P.primary srkTemplate).seed := by
        by_cases hours : isLinhelloSrk k.area = true
        · rw [if_pos hours] at hkey
          rw [hparent, ← Option.some.inj hkey, (hserves hours).1]
        · rw [if_neg hours] at hkey
          rw [hparent, ← Option.some.inj hkey]
      exact loads_of_sealed ⟨hobject, hfits, _, storageKey_empty hh hempty, P.primary_auth _, hseed⟩

/-! ## Keys at the handle -/

def simulatedOccupied (k : StorageKey) : Machine where
  sys := { (simulatedMachine false none).sys with
    persistent := fun h => if h = PERSISTENT_SRK_HANDLE then some k else none }
  next := 0
  object := fun _ => none
  session := fun _ => none

def foreignKey : StorageKey := { area := .other [], auth := [], seed := [9] }

/-- The primary key made anew with an auth value, as `-p` of the TPM tools gives it. -/
def lockedKey : StorageKey := { area := srkTemplate, auth := [1], seed := [7] }

theorem simulated_seals_transient (k : StorageKey) : ∃ env m₂,
    Exec (Step simulated False) (sealWithPlan simulated [1, 2, 3] .none).run
      (simulatedOccupied foreignKey) (.ok env) m₂ ∧ SameRest m₂ (simulatedOccupied k) := by
  have hvalue :
      ∃ env v, eval (respond simulatedChoices) (sealWithPlan simulated [1, 2, 3] .none).run
      (simulatedOccupied foreignKey) = (.ok env, v) ∧ SameRest v (simulatedOccupied k) :=
    ⟨_, _, rfl, rfl, rfl⟩
  obtain ⟨env, v, heval, hsame⟩ := hvalue
  have hexec := exec_of_respond (F := False) simulatedChoices
    (sealWithPlan simulated [1, 2, 3] .none).run (simulatedOccupied foreignKey)
  rw [heval] at hexec
  exact ⟨env, v, hexec, hsame⟩

/-- The primary key itself, persisted after the seal. -/
theorem cached_key_optional_primary :
    ∃ env m₂, Exec (Step simulated False) (sealWithPlan simulated [1, 2, 3] .none).run
      (simulatedOccupied foreignKey) (.ok env) m₂ ∧
      Loads simulated (simulatedOccupied (simulated.primary srkTemplate)) env := by
  obtain ⟨env, m₂, hseal, hsame⟩ := simulated_seals_transient (simulated.primary srkTemplate)
  exact ⟨env, m₂, hseal,
    (((cached_key_optional_iff (P := simulated) (h := PERSISTENT_SRK_HANDLE) rfl
    (simulated.primary srkTemplate)).1 _ m₂ _ _ _ env ⟨foreignKey, rfl, rfl⟩ hseal hsame rfl).2
    fun _ => ⟨rfl, rfl⟩).1⟩

/-- The public area of the locked key is the primary's. -/
theorem not_cached_key_optional :
    ¬ ∀ (P : Platform) (h : Nat) (k : StorageKey) (m₁ m₂ m₃ : Machine) (secret : Bytes)
      (p : PolicyPlan) (env : SealedEnvelope), persistentSrkHandle P = .ok h → Transient m₁ h →
      Exec (Step P False) (sealWithPlan P secret p).run m₁ (.ok env) m₂ → SameRest m₂ m₃ →
      m₃.sys.persistent h = some k → Loads P m₃ env := by
  intro hall
  obtain ⟨env, m₂, hseal, hsame⟩ := simulated_seals_transient lockedKey
  have hloads := hall simulated PERSISTENT_SRK_HANDLE lockedKey _ _ _ _ _ env rfl
    ⟨foreignKey, rfl, rfl⟩ hseal hsame rfl
  obtain ⟨o, key, -, hkey, hauth, -⟩ := sealed_of_loads hloads
  obtain rfl := Option.some.inj hkey
  cases hauth

end Linhello.Tpm
