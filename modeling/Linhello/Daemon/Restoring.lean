import Linhello.Core.Recovery
import Linhello.Daemon.KeyAccess
import Linhello.Daemon.KeyTraces
import Linhello.Daemon.Reopening
/-!
# Restoring from the recovery passphrase

`RestoreFromRecovery` reads everything it decides on before it writes anything. So a
request that finds no key for its passphrase changes nothing, and one that succeeds
leaves an envelope of exactly the wrapped key behind, which opens whenever the plan it
was sealed under is one that an unseal can follow (`recovery_round_trip`).
-/

namespace Linhello.Daemon

open Common Linhello.Core Effect Host Host.World

namespace Computer

variable {P : Tpm.Platform} {flt : Faults} {x y z : Computer} {pr : Process} {cl : CryptoLib}
  {user : String} {passphrase key : Bytes} {peerUid : Option Nat} {resp : Response}

/-! ## Parts of the request -/

/-- What does not reach the core crate happens in the world alone. -/
theorem world_of_step {o : Op} {r : o.Ans} (ho : coreCall P o = none)
    (h : StepWith P flt x o r y) :
    y.machine = x.machine ∧ World.Step (fun _ => none) flt x.world o r y.world := by
  rcases h with ⟨-, hfailed, -⟩ | hstep
  · cases o <;> first | exact hfailed.elim | cases ho
  · rw [ho] at hstep
    exact hstep

private theorem eq_of_read {p : Path} {r : Except IoError p.Data}
    (h : StepWith P flt x (.read p) r y) : y = x := by
  obtain ⟨hmachine, -, hworld⟩ := world_of_step rfl h
  cases x
  cases y
  simp_all [World.next]

/-- What a successful seal leaves: the envelope of the key, and all else as it was. -/
theorem exec_sealTemplateKey_ok
    (h : Exec (StepWith P flt) (sealTemplateKey user key).run x (.ok ()) y) :
    ∃ env, Exec (Tpm.Step P False) (Tpm.sealSecret P key).run x.machine (.ok env) y.machine ∧
      y.world.file (.user user .templateKeyEnvelope) = some (.value env) ∧
      ∀ p, p ≠ .user user .templateKeyEnvelope → y.world.file p = x.world.file p := by
  unfold sealTemplateKey at h
  split at h
  · cases h.1
  · simp only [exec_exceptT_bind_ok, exec_fallible, exec_perform, exec_io_ok] at h
    obtain ⟨_, _, ⟨-, rfl⟩, env, x₁, hseal, _, x₂, hsave, hchmod⟩ := h
    obtain ⟨_, x₃, hmkdir, hwrite⟩ := exec_exceptT_bind_ok.1 hsave
    rw [exec_io_ok, exec_perform] at hmkdir hwrite
    obtain ⟨hmachine₃, hmkdir⟩ := world_of_step rfl hmkdir
    obtain ⟨hmachine₂, hwrite⟩ := world_of_step rfl hwrite
    obtain ⟨hmachine, hchmod⟩ := world_of_step rfl hchmod
    obtain ⟨-, hfailed, -⟩ | ⟨hworld, hexec⟩ := hseal
    · exact hfailed.elim
    · have hset : y.world = x₃.world.set (.user user .templateKeyEnvelope) (.value env) := by
        rw [step_setPermissions hchmod, step_write_ok hwrite]
        rfl
      have hdir : x₃.world = x₁.world.mkdir (some user) := hmkdir.2
      refine ⟨env, ?_, ?_, fun p hp => ?_⟩
      · rw [hmachine, hmachine₂, hmachine₃]
        exact hexec
      · rw [hset, file_set_self]
      · rw [hset, file_set_of_ne _ _ hp, hdir, file_mkdir, hworld]

/-- A restore stops before it has written anything, or it goes on to seal the key that the
recovery file gives for the passphrase. -/
theorem exec_restoreFromRecovery {r : Except LinuxHelloError Unit}
    (h : Exec (StepWith P flt) (restoreFromRecovery cl user passphrase).run x r y) :
    ((∃ e, r = .error e) ∧ y = x) ∨
      ∃ key, recoveredKey cl user passphrase x.world = some key ∧
        Exec (StepWith P flt) (sealTemplateKey user key).run x r y := by
  unfold restoreFromRecovery at h
  rcases exec_exceptT_bind.1 h with ⟨_, x₁, hvalid, h₁⟩ | ⟨e, hvalid, rfl⟩
  · obtain ⟨-, rfl⟩ := exec_orFail.1 hvalid
    obtain ⟨content, x₂, hread, h₂⟩ := h₁
    obtain rfl := eq_of_read hread
    cases content with
    | error e => exact .inl ⟨⟨_, h₂.1⟩, h₂.2⟩
    | ok json =>
        have hfile := (step_read_ok (world_of_step rfl hread).2).1
        cases json with
        | invalidUtf8 => exact .inl ⟨⟨_, h₂.1⟩, h₂.2⟩
        | malformed msg => exact .inl ⟨⟨_, h₂.1⟩, h₂.2⟩
        | value env =>
            have hrun : Exec (StepWith P flt)
                (orFail (unwrap cl passphrase env) >>= sealTemplateKey user).run x₂ r y := h₂
            cases hunwrap : unwrap cl passphrase env with
            | error e =>
                rw [hunwrap] at hrun
                exact .inl ⟨⟨_, hrun.1⟩, hrun.2⟩
            | ok key =>
                rw [hunwrap] at hrun
                refine .inr ⟨key, ?_, hrun⟩
                simp only [recoveredKey, hfile, hunwrap]
                rfl
  · exact .inl ⟨⟨e, rfl⟩, (exec_orFail.1 hvalid).2⟩

/-! ## The request -/

/-- A request that is refused before it reaches its handler answers an error. -/
theorem exec_rootOnly {S : Semantics host Computer} {op : String} {handler : Proc Response}
    (h : Exec S (rootOnly peerUid op user handler) x resp y) :
    (resp.isError = true ∧ y = x) ∨
      (validateUser user = .ok () ∧ Exec S handler x resp y) := by
  unfold rootOnly at h
  split at h
  · obtain ⟨rfl, rfl⟩ := h
    exact .inl ⟨rfl, rfl⟩
  · unfold withUser at h
    cases hvalid : validateUser user with
    | error e =>
        rw [hvalid] at h
        obtain ⟨rfl, rfl⟩ := h
        exact .inl ⟨rfl, rfl⟩
    | ok u =>
        rw [hvalid] at h
        exact .inr ⟨rfl, h⟩

/-- A request that succeeds has sealed the key and dropped the cached one; one that does not
answers an error. -/
theorem exec_doRestoreFromRecovery
    (h : Exec (StepWith P flt) (doRestoreFromRecovery pr user passphrase) x resp y) :
    ∃ r z, Exec (StepWith P flt) (restoreFromRecovery pr.cl user passphrase).run x r z ∧
      ((∃ e, r = .error e ∧ resp = .error e.display ∧ y = z) ∨
        (r = .ok () ∧ resp = .recoveryRestored ∧ y.machine = z.machine ∧
          y.world = { z.world with cache := z.world.cache.erase user })) := by
  unfold doRestoreFromRecovery at h
  obtain ⟨r, z, hr, hrest⟩ := exec_bind.1 h
  refine ⟨r, z, hr, ?_⟩
  cases r with
  | error e =>
      obtain ⟨rfl, rfl⟩ := hrest
      exact .inl ⟨e, rfl, rfl, rfl⟩
  | ok _ =>
      obtain ⟨_, u, hevict, rfl, rfl⟩ := hrest
      obtain ⟨hmachine, hworld⟩ := world_of_step rfl hevict
      exact .inr ⟨rfl, rfl, hmachine, hworld.2⟩

/-- Without a key for its passphrase a request answers an error and changes nothing. -/
theorem refused_of_unrecovered (hnone : recoveredKey pr.cl user passphrase x.world = none)
    (h : Exec (StepWith P flt) (dispatch pr (.restoreFromRecovery user passphrase) peerUid) x resp
      y) : resp.isError = true ∧ y = x := by
  rcases exec_rootOnly h with hrefused | ⟨-, hhandler⟩
  · exact hrefused
  · obtain ⟨r, z, hr, hcases⟩ := exec_doRestoreFromRecovery hhandler
    rcases exec_restoreFromRecovery hr with ⟨⟨e, rfl⟩, rfl⟩ | ⟨key, hkey, -⟩
    · rcases hcases with ⟨e', -, rfl, rfl⟩ | ⟨herror, -⟩
      · exact ⟨rfl, rfl⟩
      · cases herror
    · cases hnone.symm.trans hkey

/-- What a restore leaves: a new envelope of the key, no cached key, and all else as it was. -/
structure Restored (P : Tpm.Platform) (user : String) (key : Bytes) (x y : Computer) : Prop where
  envelope : ∃ env, y.world.file (.user user .templateKeyEnvelope) = some (.value env) ∧
    Exec (Tpm.Step P False) (Tpm.sealSecret P key).run x.machine (.ok env) y.machine
  evicted : y.world.cache.lookup user = none
  otherFiles : ∀ p, p ≠ .user user .templateKeyEnvelope → y.world.file p = x.world.file p

/-- A restored key is the one the recovery file gives for the passphrase. -/
theorem restored_of_exec
    (h : Exec (StepWith P flt) (dispatch pr (.restoreFromRecovery user passphrase) peerUid) x
      .recoveryRestored y) :
    validateUser user = .ok () ∧
      ∃ key, recoveredKey pr.cl user passphrase x.world = some key ∧ Restored P user key x y := by
  rcases exec_rootOnly h with ⟨herror, -⟩ | ⟨huser, hhandler⟩
  · cases herror
  · obtain ⟨r, z, hr, hcases⟩ := exec_doRestoreFromRecovery hhandler
    rcases hcases with ⟨e, -, herror, -⟩ | ⟨rfl, -, hmachine, hworld⟩
    · cases herror
    · rcases exec_restoreFromRecovery hr with ⟨⟨e, he⟩, -⟩ | ⟨key, hkey, hseal⟩
      · cases he
      · obtain ⟨env, hexec, hfile, hrest⟩ := exec_sealTemplateKey_ok hseal
        refine ⟨huser, key, hkey, ⟨env, ?_, ?_⟩, ?_, fun p hp => ?_⟩
        · rw [hworld, file_withCache, hfile]
        · rw [hmachine]
          exact hexec
        · rw [hworld]
          exact AList.lookup_erase _ _
        · rw [hworld, file_withCache, hrest p hp]

/-! ## The key afterwards -/

/-- What a user can do with the key that was restored. -/
structure Usable (P : Tpm.Platform) (pr : Process) (user : String) (key : Bytes) (y : Computer) :
    Prop where
  unseals : y.Holds P (.user user .templateKeyEnvelope) id key
  obtained : ∀ r z, Exec (Step P) (cachedTemplateKey user).run y r z → r = .ok key
  loaded : ∀ r z r' z', Exec (Step P) (cachedTemplateKey user).run y r z →
    Exec (Step P) (loadEncryptedEmbedding pr user key).run z r' z' →
      ∀ blob raw, y.world.file (.user user .embeddingEnc) = some blob →
        decrypt pr.cl key blob = .ok raw → r' = .ok raw

private theorem unsealed_of_holds {r : Except LinuxHelloError Bytes}
    (huser : validateUser user = .ok ())
    (hholds : x.Holds P (.user user .templateKeyEnvelope) id key)
    (h : Exec (Step P) (unsealTemplateKey user).run x r y) : r = .ok key ∧ y.world = x.world := by
  obtain ⟨env, hfile, hyields⟩ := hholds
  have hload : (SealedEnvelope.load (.user user .templateKeyEnvelope) id).run.Only still :=
    only_readJson ⟨rfl, fun _ => rfl⟩
  have hopen := exec_orFail_bind_ok huser h
  rcases exec_exceptT_bind.1 hopen with ⟨env', v, hread, hunseal⟩ | ⟨e, hread, -⟩
  · obtain ⟨rfl, d, hd, rfl⟩ := exec_load hread
    obtain rfl := Json.value.inj (Option.some.inj (hd.symm.trans hfile))
    obtain ⟨hworld, hexec⟩ := exec_perform.1 (exec_fallible.1 hunseal)
    exact ⟨hyields _ _ hexec, hworld⟩
  · obtain ⟨hparse, -⟩ := faultless_load hfile (exec_world hload hread)
    cases hparse

/-- The key in the envelope is fetched, and remembered. -/
theorem obtained_of_holds {r : Except String Bytes} (huser : validateUser user = .ok ())
    (hmiss : x.world.cache.lookup user = none)
    (hholds : x.Holds P (.user user .templateKeyEnvelope) id key)
    (h : Exec (Step P) (cachedTemplateKey user).run x r y) :
    r = .ok key ∧ ∀ p, y.world.file p = x.world.file p := by
  have hpresent : (x.world.file (.user user .templateKeyEnvelope)).isSome = true := by
    obtain ⟨env, hfile, -⟩ := hholds
    rw [hfile]
    rfl
  obtain ⟨cached, v, hcached, hrest⟩ := exec_lift_bind.1 h
  obtain ⟨rfl, hget⟩ := step_still ⟨rfl, fun _ => rfl⟩ (exec_perform.1 hcached)
  obtain ⟨rfl, -⟩ := step_cacheGet hget
  rw [hmiss] at hrest
  have hensure : ∀ r z, Exec (Step P) (ensureTemplateKey user).run v r z →
      r = .ok key ∧ z.world = v.world := by
    intro r z hr
    have hunseal := (exec_ensureTemplateKey huser).1 hr
    rw [if_pos hpresent] at hunseal
    exact unsealed_of_holds huser hholds hunseal
  obtain ⟨key', u, hmapped, hinsert⟩ | ⟨e, hmapped, -⟩ := exec_exceptT_bind.1 hrest
  · obtain ⟨r', hr', hmap⟩ := exec_map.1 hmapped
    obtain ⟨rfl, hworld⟩ := hensure _ _ hr'
    obtain rfl := Except.ok.inj hmap
    obtain ⟨_, t, hstep, rfl, rfl⟩ := exec_lift_bind.1 hinsert
    obtain ⟨-, -, hnext⟩ := exec_perform.1 hstep
    refine ⟨rfl, fun p => ?_⟩
    rw [hnext, ← hworld]
    rfl
  · obtain ⟨r', hr', hmap⟩ := exec_map.1 hmapped
    obtain ⟨rfl, -⟩ := hensure _ _ hr'
    cases hmap

private theorem loaded_of_file {blob : Bytes} {r : Except LinuxHelloError Bytes}
    (huser : validateUser user = .ok ())
    (hfile : x.world.file (.user user .embeddingEnc) = some blob)
    (h : Exec (Step P) (loadEncryptedEmbedding pr user key).run x r y) :
    r = decrypt pr.cl key blob := by
  unfold loadEncryptedEmbedding at h
  have h₀ := exec_orFail_bind_ok huser h
  obtain ⟨present, v, hpresent, h₁⟩ := exec_lift_bind.1 h₀
  obtain ⟨rfl, rfl⟩ := step_pathExists_iff.1 (exec_perform.1 hpresent)
  rw [hfile] at h₁
  have hread : ∀ c t, Exec (Step P) (perform (.read (.user user .embeddingEnc))) v c t →
      c = .ok blob ∧ t = v := by
    intro c t hc
    obtain ⟨rfl, hstep⟩ := step_still ⟨rfl, fun _ => rfl⟩ (exec_perform.1 hc)
    exact ⟨(faultless_read_some hfile hstep).1, rfl⟩
  exact (exec_io_bind_of_ok hread h₁).1

/-- Where the plan is one that an unseal can follow, the restored key is usable. -/
theorem Restored.usable (huser : validateUser user = .ok ())
    (hplans : Tpm.PlansPresentable P x.machine) (h : Restored P user key x y) :
    Usable P pr user key y := by
  obtain ⟨env, hfile, hseal⟩ := h.envelope
  have hholds : y.Holds P (.user user .templateKeyEnvelope) id key :=
    ⟨env, hfile, Tpm.yields_iff.2 (Tpm.opened_of_sealSecret hplans hseal).1⟩
  refine ⟨hholds, fun r z hr => (obtained_of_holds huser h.evicted hholds hr).1,
    fun r z r' z' hr hr' blob raw henc hdec => ?_⟩
  have henc' : z.world.file (.user user .embeddingEnc) = some blob := by
    rw [(obtained_of_holds huser h.evicted hholds hr).2, henc]
  rw [loaded_of_file huser henc' hr', hdec]

/-! ## The law -/

/-- The recovery file of `user` in `w` holds no forgery. -/
def Genuine (cl : CryptoLib) (made : Set (Wrapping cl)) (user : String) (w : World) : Prop :=
  ∀ env blob, w.file (.user user .recoveryEnvelope) = some (.value env) →
    cl.decode env.wrapped = .ok blob → Unforged cl made blob

/-- The recovery file is an envelope some wrapping made with this passphrase. -/
def Recovers (made : Set (Wrapping cl)) (user : String) (passphrase : Bytes) (w : World)
    (key : Bytes) : Prop :=
  ∃ env, w.file (.user user .recoveryEnvelope) = some (.value env) ∧
    WrappedWith made passphrase env key

theorem recoveredKey_eq_some {made : Set (Wrapping cl)} {w : World} (hkdf : InjectiveKdf cl)
    (hcanonical : CanonicalEncoding cl) (hgenuine : Genuine cl made user w)
    (h : recoveredKey cl user passphrase w = some key) :
    Recovers made user passphrase w key := by
  unfold recoveredKey at h
  split at h
  · rename_i env hfile
    have hunwrap : unwrap cl passphrase env = .ok key := by
      cases hr : unwrap cl passphrase env with
      | error e =>
          rw [hr] at h
          cases h
      | ok k =>
          rw [hr] at h
          rw [Option.some.inj h]
    exact ⟨env, hfile, wrapping_of_unwrap hkdf hcanonical
      (fun blob hblob => hgenuine env blob hfile hblob) hunwrap⟩
  · cases h

/-- What is wrapped with a passphrase comes back under it. A restore with a wrong
passphrase, or from a file that is missing, malformed or changed, answers an error
and changes nothing; one that succeeds seals the wrapped key anew, and makes it usable
again wherever every plan made there is one that an unseal can follow. -/
theorem recovery_round_trip {sealed : SealedEnvelope → Option Bytes}
    (hkdf : InjectiveKdf pr.cl) (hcanonical : CanonicalEncoding pr.cl) :
    (∀ p k v r v', p ≠ [] → Wrappable pr.cl p k →
      Exec (World.Step sealed flt) (wrap pr.cl p k).run v r v' →
        ∃ env, r = .ok env ∧ unwrap pr.cl p env = .ok k) ∧
      ∀ (made : Set (Wrapping pr.cl)) (user : String) (passphrase : Bytes) (peerUid : Option Nat)
        (x : Computer) (resp : Response) (y : Computer), Genuine pr.cl made user x.world →
        Exec (StepWith P flt) (dispatch pr (.restoreFromRecovery user passphrase) peerUid) x resp
          y →
        ((¬ ∃ key, Recovers made user passphrase x.world key) → resp.isError = true ∧ y = x) ∧
          (resp = .recoveryRestored → ∃ key, Recovers made user passphrase x.world key ∧
            Restored P user key x y ∧
              (Tpm.PlansPresentable P x.machine → Usable P pr user key y)) := by
  constructor
  · intro p k v r v' hp hwrap h
    obtain ⟨-, made, rfl, rfl, rfl⟩ := exec_wrap hwrap hp h
    exact ⟨_, rfl, made.unwrap_envelope⟩
  · intro made user passphrase peerUid x resp y hgenuine h
    constructor
    · intro hnone
      refine refused_of_unrecovered ?_ h
      cases hkey : recoveredKey pr.cl user passphrase x.world with
      | none => rfl
      | some key => exact absurd ⟨key, recoveredKey_eq_some hkdf hcanonical hgenuine hkey⟩ hnone
    · rintro rfl
      obtain ⟨huser, key, hkey, hrestored⟩ := restored_of_exec h
      exact ⟨key, recoveredKey_eq_some hkdf hcanonical hgenuine hkey, hrestored,
        fun hplans => hrestored.usable huser hplans⟩

/-! ## An ideal instance -/

def idealPassphrase : Bytes := [112, 119]

def idealSalt : Bytes := List.replicate SALT_LEN 7

/-- The length of the passphrase, the passphrase padded, and the salt. -/
def idealDerived (passphrase salt : Bytes) : Bytes :=
  UInt8.ofNat passphrase.length ::
    ((passphrase ++ List.replicate (15 - passphrase.length) 0) ++ salt)

def idealKdf (passphrase salt : Bytes) (m t c : Nat) : Except LinuxHelloError Bytes :=
  if passphrase.length ≤ 15 ∧ salt.length = SALT_LEN ∧ m = M_COST ∧ t = T_COST ∧ c = P_COST then
    .ok (idealDerived passphrase salt)
  else .error (.policy "argon2 params: out of range")

/-- The key of the one wrapping below has a tag of its own. -/
def idealTag (key : Bytes) : Bytes :=
  List.replicate 16 (if key = idealDerived idealPassphrase idealSalt then 1 else 0)

def idealOpen (key _nonce ct : Bytes) : Option Bytes :=
  if ct.drop (ct.length - 16) = idealTag key then some (ct.take (ct.length - 16)) else none

def idealDecode (s : String) : Except String Bytes :=
  if s.toList.all fun c => c.toNat < 256 then simulatedDecode s else .error "invalid symbol"

theorem length_idealTag (key : Bytes) : (idealTag key).length = 16 := List.length_replicate

theorem idealDecode_encode (b : Bytes) : idealDecode (simulatedEncode b) = .ok b := by
  have hsmall : (simulatedEncode b).toList.all (fun c => c.toNat < 256) = true := by
    rw [simulatedEncode, String.toList_ofList, List.all_map, List.all_eq_true]
    intro x _
    have hvalid : x.toNat.isValidChar := .inl (lt_trans x.toNat_lt (by decide))
    have hchar : (Char.ofNat x.toNat).toNat = x.toNat := by
      rw [Char.ofNat, dif_pos hvalid]
      rfl
    simpa [hchar] using x.toNat_lt
  rw [idealDecode, if_pos hsmall, simulatedDecode_encode]

def idealSeal (key _nonce m : Bytes) : Option Bytes := some (m ++ idealTag key)

theorem idealOpen_of_seal (k n m c : Bytes) (h : idealSeal k n m = some c) :
    idealOpen k n c = some m := by
  obtain rfl := Option.some.inj h
  have hlen : (m ++ idealTag k).length - 16 = m.length := by
    rw [List.length_append, length_idealTag]
    omega
  rw [idealOpen, hlen, List.drop_left, List.take_left, if_pos rfl]

private theorem length_of_seal (k n m c : Bytes) (h : idealSeal k n m = some c) :
    c.length = m.length + 16 := by
  obtain rfl := Option.some.inj h
  rw [List.length_append, length_idealTag]

def idealCrypto : CryptoLib where
  aeadSeal := idealSeal
  aeadOpen := idealOpen
  argon2 := idealKdf
  encode := simulatedEncode
  decode := idealDecode
  aeadOpen_aeadSeal := idealOpen_of_seal
  length_aeadSeal := length_of_seal
  decode_encode := idealDecode_encode

theorem idealDerived_inj {p salt p' salt' : Bytes} (hp : p.length ≤ 15) (hp' : p'.length ≤ 15)
    (h : idealDerived p salt = idealDerived p' salt') : p = p' ∧ salt = salt' := by
  obtain ⟨hhead, htail⟩ := List.cons.inj h
  have hlen : p.length = p'.length := by
    have hnat := congrArg UInt8.toNat hhead
    simp only [UInt8.toNat_ofNat'] at hnat
    omega
  have hpad : (p ++ List.replicate (15 - p.length) 0).length =
      (p' ++ List.replicate (15 - p'.length) (0 : UInt8)).length := by
    simp only [List.length_append, List.length_replicate, hlen]
  obtain ⟨hfront, hsalt⟩ := List.append_inj htail hpad
  exact ⟨(List.append_inj hfront hlen).1, hsalt⟩

theorem idealKdf_eq_ok {p salt dk : Bytes} {m t c : Nat} (h : idealKdf p salt m t c = .ok dk) :
    (p.length ≤ 15 ∧ salt.length = SALT_LEN ∧ m = M_COST ∧ t = T_COST ∧ c = P_COST) ∧
      idealDerived p salt = dk := by
  unfold idealKdf at h
  split at h
  · rename_i haccepted
    exact ⟨haccepted, Except.ok.inj h⟩
  · cases h

theorem injectiveKdf_idealCrypto : InjectiveKdf idealCrypto := by
  intro p salt m t c p' salt' m' t' c' dk h h'
  obtain ⟨⟨hp, -, rfl, rfl, rfl⟩, hdk⟩ := idealKdf_eq_ok h
  obtain ⟨⟨hp', -, rfl, rfl, rfl⟩, hdk'⟩ := idealKdf_eq_ok h'
  obtain ⟨rfl, rfl⟩ := idealDerived_inj hp hp' (hdk.trans hdk'.symm)
  exact ⟨rfl, rfl, rfl, rfl, rfl⟩

theorem canonicalEncoding_idealCrypto : CanonicalEncoding idealCrypto := by
  intro s b h
  have hdecode : idealDecode s = .ok b := h
  unfold idealDecode at hdecode
  split at hdecode
  · rename_i hsmall
    have hb : s.toList.map (fun c => UInt8.ofNat c.toNat) = b := Except.ok.inj hdecode
    have hchar : ∀ c ∈ s.toList, Char.ofNat (UInt8.ofNat c.toNat).toNat = c := by
      intro c hc
      have hlt : c.toNat < 256 := of_decide_eq_true (List.all_eq_true.1 hsmall c hc)
      rw [UInt8.toNat_ofNat_of_lt' hlt, Char.ofNat_toNat]
    have hchars : b.map (fun x => Char.ofNat x.toNat) = s.toList := by
      rw [← hb, List.map_map]
      exact (List.map_congr_left hchar).trans (List.map_id _)
    show String.ofList (b.map fun x => Char.ofNat x.toNat) = s
    rw [hchars, String.ofList_toList]
  · cases hdecode

/-! ### One wrapping -/

def idealWrapping : Wrapping idealCrypto where
  passphrase := idealPassphrase
  templateKey := simulatedKey
  salt := idealSalt
  nonce := List.replicate NONCE_LEN 7
  derived := idealDerived idealPassphrase idealSalt
  ciphertext := simulatedKey ++ List.replicate 16 1
  length_salt := rfl
  length_nonce := rfl
  length_derived := rfl
  derives := rfl
  seals := rfl

/-- The user's recovery file holds the envelope of the wrapping, under some version. -/
def recoveryWorld (version : Nat) : World :=
  emptyWorld.set (.user "alice" .recoveryEnvelope)
    (.value { idealWrapping.envelope with version := version })

def idealProcess : Process := { simulatedProcess with cl := idealCrypto }

theorem genuine_recoveryWorld (version : Nat) :
    Genuine idealCrypto {idealWrapping} "alice" (recoveryWorld version) := by
  intro env blob hfile hblob p salt m t c dk key _ hopen
  have henv : { idealWrapping.envelope with version := version } = env := by
    rw [recoveryWorld, file_set_self] at hfile
    exact Json.value.inj (Option.some.inj hfile)
  have hsame : idealWrapping.blob = blob := by
    have hwrapped : env.wrapped = idealCrypto.encode idealWrapping.blob := by rw [← henv]; rfl
    rw [hwrapped, idealCrypto.decode_encode] at hblob
    exact Except.ok.inj hblob
  refine ⟨idealWrapping, rfl, ?_, hsame⟩
  by_contra hne
  have htag : idealTag dk = List.replicate 16 0 := by
    rw [idealTag, if_neg fun heq => hne heq.symm]
  have hclosed : idealOpen dk (blob.take NONCE_LEN) (blob.drop NONCE_LEN) = none := by
    rw [← hsame, idealOpen, htag]
    rfl
  have hrefused : ∃ e, decrypt idealCrypto dk blob = .error e := by
    unfold decrypt
    split
    · exact ⟨_, rfl⟩
    · split
      · exact ⟨_, rfl⟩
      · have hfailed : idealCrypto.aeadOpen dk (blob.take NONCE_LEN) (blob.drop NONCE_LEN) = none :=
          hclosed
        rw [hfailed]
        exact ⟨_, rfl⟩
  obtain ⟨e, he⟩ := hrefused
  rw [he] at hopen
  cases hopen

theorem wrappable_idealCrypto : Wrappable idealCrypto idealPassphrase simulatedKey := by
  refine ⟨fun salt hsalt => ?_, fun dk nonce _ _ => ⟨_, rfl⟩⟩
  refine ⟨idealDerived idealPassphrase salt, ?_, ?_⟩
  · have haccepted : idealPassphrase.length ≤ 15 ∧ salt.length = SALT_LEN ∧ M_COST = M_COST ∧
        T_COST = T_COST ∧ P_COST = P_COST := ⟨by decide, hsalt, rfl, rfl, rfl⟩
    exact if_pos haccepted
  · simp [idealDerived, idealPassphrase, hsalt, SALT_LEN, KEY_LEN]

theorem recoveryWorld_file (version : Nat) : (recoveryWorld version).file
    (.user "alice" .recoveryEnvelope) = some (.value { idealWrapping.envelope with version }) :=
  file_set_self _ _ _

private theorem unwrap_idealWrapping (version : Nat) :
    unwrap idealCrypto idealPassphrase { idealWrapping.envelope with version } =
      .ok simulatedKey :=
  idealWrapping.unwrap_envelope

/-! ### The simulated computer -/

/-- The recovery file, on a host with these signatures. -/
def recoveryComputer (version : Nat) (signatures : Option (Json Tpm.Banks)) : Computer :=
  ⟨recoveryWorld version, Tpm.simulatedMachine true signatures⟩

def restoredWorld (version : Nat) (env : SealedEnvelope) : World :=
  ((recoveryWorld version).mkdir (some "alice")).set (.user "alice" .templateKeyEnvelope)
    (.value env)

section Simulated

variable {version : Nat} {signatures : Option (Json Tpm.Banks)} {env : SealedEnvelope}
  {m : Tpm.Machine}

/-- The key that was sealed is stored. -/
private theorem exec_sealTemplateKey_recovery
    (hseal : Exec (Tpm.Step Tpm.simulated False) (Tpm.sealSecret Tpm.simulated simulatedKey).run
      (Tpm.simulatedMachine true signatures) (.ok env) m) :
    Exec (StepWith Tpm.simulated flt) (sealTemplateKey "alice" simulatedKey).run
      (recoveryComputer version signatures) (.ok ()) ⟨restoredWorld version env, m⟩ := by
  have hS : Reaches flt (StepWith Tpm.simulated flt) := fun _ _ _ _ _ h => h
  have hdir : StepWith Tpm.simulated flt ⟨recoveryWorld version, m⟩ (.createDirAll (some "alice"))
      (.ok ()) ⟨(recoveryWorld version).mkdir (some "alice"), m⟩ := hS.step rfl ⟨rfl, rfl⟩
  have hwrite : StepWith Tpm.simulated flt ⟨(recoveryWorld version).mkdir (some "alice"), m⟩
      (.write (.user "alice" .templateKeyEnvelope) (.value env)) (.ok ())
        ⟨restoredWorld version env, m⟩ := by
    refine hS.step rfl ⟨?_, rfl⟩
    have hhas : ((recoveryWorld version).mkdir (some "alice")).hasDir (some "alice") = true :=
      hasDir_mkdir.2 (.inl rfl)
    simp [World.allows, ioAnswer, Path.parent, hhas]
  have hmode : StepWith Tpm.simulated flt ⟨restoredWorld version env, m⟩
      (.setPermissions (.user "alice" .templateKeyEnvelope)) (.ok ())
        ⟨restoredWorld version env, m⟩ := by
    refine hS.step rfl ⟨?_, rfl⟩
    simp [World.allows, ioAnswer, restoredWorld, file_set_self]
  rw [sealTemplateKey, if_neg (by decide)]
  refine exec_exceptT_bind_ok.2 ⟨(), recoveryComputer version signatures,
    exec_orFail.2 ⟨rfl, rfl⟩, ?_⟩
  refine exec_exceptT_bind_ok.2 ⟨env, ⟨recoveryWorld version, m⟩,
    exec_fallible.2 (exec_perform.2 (.inr ⟨rfl, hseal⟩)), ?_⟩
  refine exec_exceptT_bind_ok.2 ⟨(), ⟨restoredWorld version env, m⟩, ?_,
    exec_io_ok.2 (exec_perform.2 hmode)⟩
  exact exec_exceptT_bind_ok.2 ⟨(), ⟨(recoveryWorld version).mkdir (some "alice"), m⟩,
    exec_io_ok.2 (exec_perform.2 hdir), exec_io_ok.2 (exec_perform.2 hwrite)⟩

/-- A restore with the passphrase answers that the key is back, whatever the version. -/
theorem exec_restore_recovery
    (hseal : Exec (Tpm.Step Tpm.simulated False) (Tpm.sealSecret Tpm.simulated simulatedKey).run
      (Tpm.simulatedMachine true signatures) (.ok env) m) :
    ∃ y, Exec (StepWith Tpm.simulated flt)
        (dispatch idealProcess (.restoreFromRecovery "alice" idealPassphrase) (some 0))
        (recoveryComputer version signatures) .recoveryRestored y ∧ y.machine = m ∧
      y.world.file (.user "alice" .templateKeyEnvelope) = some (.value env) := by
  have hS : Reaches flt (StepWith Tpm.simulated flt) := fun _ _ _ _ _ h => h
  have hread : StepWith Tpm.simulated flt (recoveryComputer version signatures)
      (.read (.user "alice" .recoveryEnvelope))
      (.ok (.value { idealWrapping.envelope with version }))
      (recoveryComputer version signatures) :=
    hS.step rfl (step_read (recoveryWorld_file version))
  have hevict : StepWith Tpm.simulated flt ⟨restoredWorld version env, m⟩ (.cacheRemove "alice") ()
      ⟨(restoredWorld version env).next (.cacheRemove "alice") (), m⟩ := hS.step rfl ⟨rfl, rfl⟩
  have hrestore : Exec (StepWith Tpm.simulated flt)
      (restoreFromRecovery idealCrypto "alice" idealPassphrase).run
      (recoveryComputer version signatures) (.ok ()) ⟨restoredWorld version env, m⟩ := by
    refine exec_exceptT_bind_ok.2 ⟨(), recoveryComputer version signatures,
      exec_orFail.2 ⟨rfl, rfl⟩, ?_⟩
    refine ⟨_, recoveryComputer version signatures, hread, ?_⟩
    refine exec_exceptT_bind_ok.2 ⟨_, recoveryComputer version signatures,
      exec_orFail.2 ⟨rfl, rfl⟩, ?_⟩
    exact exec_exceptT_bind_ok.2 ⟨simulatedKey, recoveryComputer version signatures,
      exec_orFail.2 ⟨(unwrap_idealWrapping version).symm, rfl⟩,
      exec_sealTemplateKey_recovery hseal⟩
  refine ⟨⟨(restoredWorld version env).next (.cacheRemove "alice") (), m⟩,
    exec_bind.2 ⟨.ok (), ⟨restoredWorld version env, m⟩, hrestore, exec_bind.2
      ⟨(), _, exec_perform.2 hevict, rfl, rfl⟩⟩, rfl, ?_⟩
  rw [World.next, file_withCache, restoredWorld, file_set_self]

end Simulated

/-- The key comes back under its passphrase on a host that has signed nothing yet, and is
refused under another. -/
theorem recovery_round_trip_simulated :
    (∃ env w', Exec (World.Step simulatedUnseal .none)
        (wrap idealCrypto idealPassphrase simulatedKey).run emptyWorld (.ok env) w' ∧
          unwrap idealCrypto idealPassphrase env = .ok simulatedKey) ∧
      (∃ y key, Exec (StepWith Tpm.simulated .none)
          (dispatch idealProcess (.restoreFromRecovery "alice" idealPassphrase) (some 0))
          (recoveryComputer 1 none) .recoveryRestored y ∧
        Restored Tpm.simulated "alice" key (recoveryComputer 1 none) y ∧
          Usable Tpm.simulated idealProcess "alice" key y) ∧
      ∃ resp, Exec (StepWith Tpm.simulated .none)
          (dispatch idealProcess (.restoreFromRecovery "alice" simulatedKey) (some 0))
          (recoveryComputer 1 none) resp (recoveryComputer 1 none) ∧ resp.isError = true := by
  have hlaw :=
    @recovery_round_trip Tpm.simulated .none idealProcess simulatedUnseal injectiveKdf_idealCrypto
      canonicalEncoding_idealCrypto
  refine ⟨?_, ?_, ?_⟩
  · obtain ⟨r, w', hexec⟩ :=
      answers_faultless simulatedUnseal_seals (wrap idealCrypto idealPassphrase simulatedKey).run
      emptyWorld
    obtain ⟨env, rfl, hunwrap⟩ :=
      hlaw.1 _ _ _ _ _ (by decide) wrappable_idealCrypto hexec
    exact ⟨env, w', hexec, hunwrap⟩
  · obtain ⟨env, m, hseal, -⟩ := @Tpm.Started.sealSecret simulatedKey _ _ []
      (@Tpm.started_simulated none) (by decide) rfl
    obtain ⟨y, hexec, -⟩ := @exec_restore_recovery .none 1 _ _ _ hseal
    obtain ⟨key, -, hrestored, husable⟩ :=
      (hlaw.2 {idealWrapping} _ _ _ (recoveryComputer 1 none) _ _ (genuine_recoveryWorld 1)
        hexec).2 rfl
    exact ⟨y, key, hexec, hrestored, husable Tpm.started_simulated.presentable⟩
  · obtain ⟨resp, y, hanswer⟩ := answers_step (P := Tpm.simulated)
      (dispatch idealProcess (.restoreFromRecovery "alice" simulatedKey) (some 0))
      (recoveryComputer 1 none)
    have hexec : Exec (StepWith Tpm.simulated .none)
        (dispatch idealProcess (.restoreFromRecovery "alice" simulatedKey) (some 0))
        (recoveryComputer 1 none) resp y := exec_mono (fun _ _ _ _ h => .inr h) hanswer
    have hwrong : ¬ ∃ key, @Recovers idealCrypto {idealWrapping} "alice" simulatedKey
        (recoveryWorld 1) key := by
      rintro ⟨key, env, -, x, rfl, hp, -⟩
      exact absurd hp (by decide)
    obtain ⟨herror, rfl⟩ :=
      (hlaw.2 {idealWrapping} _ _ _ (recoveryComputer 1 none) _ _ (genuine_recoveryWorld 1)
        hexec).1 hwrong
    exact ⟨resp, hexec, herror⟩

/-- The version is not among what the restore reads: with another one the file is still
accepted. And over a signature of an earlier key the request answers that the key is
restored, in an envelope that does not open. -/
theorem not_recovery_round_trip :
    (¬ ∀ (pr : Process) (made : Set (Wrapping pr.cl)) (user : String) (passphrase : Bytes)
      (peerUid : Option Nat) (x : Computer) (resp : Response) (y : Computer),
      InjectiveKdf pr.cl → CanonicalEncoding pr.cl → Genuine pr.cl made user x.world →
      (∀ w ∈ made, x.world.file (.user user .recoveryEnvelope) ≠ some (.value w.envelope)) →
      Exec (StepWith Tpm.simulated .none)
        (dispatch pr (.restoreFromRecovery user passphrase) peerUid) x resp y →
      resp.isError = true) ∧
    ∃ y, Exec (StepWith Tpm.simulated .none)
        (dispatch idealProcess (.restoreFromRecovery "alice" idealPassphrase) (some 0))
        (recoveryComputer 1 (some (.value (Tpm.simulatedBanks [Tpm.oldKey])))) .recoveryRestored y ∧
      ¬ y.Holds Tpm.simulated (.user "alice" .templateKeyEnvelope) id simulatedKey := by
  constructor
  · intro hall
    obtain ⟨env, m, hseal, -⟩ := @Tpm.Started.sealSecret simulatedKey _ _ []
      (@Tpm.started_simulated none) (by decide) rfl
    obtain ⟨y, hexec, -⟩ := @exec_restore_recovery .none 2 _ _ _ hseal
    have hchanged : ∀ w ∈ ({idealWrapping} : Set (Wrapping idealCrypto)),
        (recoveryWorld 2).file (.user "alice" .recoveryEnvelope) ≠ some (.value w.envelope) := by
      rintro w rfl hfile
      rw [recoveryWorld_file] at hfile
      have hversion := congrArg RecoveryEnvelope.version (Json.value.inj (Option.some.inj hfile))
      exact absurd hversion (by decide)
    have herror := hall idealProcess {idealWrapping} "alice" idealPassphrase (some 0)
      (recoveryComputer 2 none) _ _ injectiveKdf_idealCrypto canonicalEncoding_idealCrypto
      (genuine_recoveryWorld 2) hchanged hexec
    cases herror
  · obtain ⟨env, m, hseal, hauthorized⟩ := @Tpm.Started.sealSecret simulatedKey _ _ _
      Tpm.started_simulated (by decide) (@Tpm.simulatedBanks_signatures [Tpm.oldKey])
    obtain ⟨y, hexec, rfl, hfile⟩ := @exec_restore_recovery .none 1 _ _ _ hseal
    refine ⟨y, hexec, ?_⟩
    rintro ⟨env', hfile', hyields⟩
    obtain rfl := Json.value.inj (Option.some.inj (hfile.symm.trans hfile'))
    exact Tpm.not_presentable_stale (Tpm.presentable_of_opens hauthorized hyields)

end Computer

end Linhello.Daemon
