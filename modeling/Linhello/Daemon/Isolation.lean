import Linhello.Daemon.Deletion
import Linhello.Daemon.UserFootprint
import Linhello.Host.Surroundings
/-!
# What an unprivileged peer can learn

A peer that is not root asks; `Agree` relates two states that differ in the secrets of
other accounts only. Whatever such a peer may reach answers alike in both, so a request
runs alike in both and gets the same response (`noninterference`).
-/

namespace Linhello.Daemon

open Common Linhello.Core Effect Host Host.World Liveness Biometrics

variable {pr : Process} {user : String} {accounts : String → Option Nat} {uid : Nat}
  {sealed : SealedEnvelope → Option Bytes} {flt : Faults} {w w' : World}

/-! ## States that agree -/

/-- What two contents of a user's file have in common if only the name and the size of
the template are open to others. -/
def SameOutside : (f : UserFile) → Option f.Data → Option f.Data → Prop
  | .displayName, d, d' => d = d'
  | .embeddingEnc, d, d' | .embeddingBin, d, d' => d.map List.length = d'.map List.length
  | _, _, _ => True

/-- Two contents of a file that the owner of `uid` must not tell apart. -/
def SameFile (accounts : String → Option Nat) (uid : Nat) :
    (p : Path) → Option p.Data → Option p.Data → Prop
  | .root _, d, d' => d = d'
  | .user v f, d, d' => (accounts v = some uid → d = d') ∧ SameOutside f d d'

/-- The states agree on everything but the passwords, recovery envelopes, template keys,
camera bindings, calibrations, cached keys and template contents of other accounts. -/
structure Agree (accounts : String → Option Nat) (uid : Nat) (w w' : World) : Prop where
  files : ∀ p, SameFile accounts uid p (w.file p) (w'.file p)
  dirs : ∀ v, w.hasDir (some v) = w'.hasDir (some v)
  cached : ∀ v, accounts v = some uid → w.cache.lookup v = w'.cache.lookup v

theorem SameOutside.refl {f : UserFile} (d : Option f.Data) : SameOutside f d d := by
  cases f <;> trivial

theorem SameOutside.symm {f : UserFile} {d d' : Option f.Data} (h : SameOutside f d d') :
    SameOutside f d' d := by
  cases f <;> first | trivial | exact Eq.symm h

theorem SameFile.refl {p : Path} (d : Option p.Data) : SameFile accounts uid p d d := by
  cases p with
  | root f => exact Eq.refl d
  | user v f => exact ⟨fun _ => Eq.refl d, .refl d⟩

theorem SameFile.symm {p : Path} {d d' : Option p.Data} (h : SameFile accounts uid p d d') :
    SameFile accounts uid p d' d := by
  cases p with
  | root f => exact Eq.symm h
  | user v f => exact ⟨fun hv => (h.1 hv).symm, h.2.symm⟩

theorem Agree.symm (h : Agree accounts uid w w') : Agree accounts uid w' w :=
  ⟨fun p => (h.files p).symm, fun v => (h.dirs v).symm, fun v hv => (h.cached v hv).symm⟩

/-- Files the owner of `uid` may see as they are. -/
def ownPath (accounts : String → Option Nat) (uid : Nat) : Path → Prop
  | .root _ => True
  | .user v _ => accounts v = some uid

theorem Agree.file_eq (h : Agree accounts uid w w') {p : Path} (hown : ownPath accounts uid p) :
    w.file p = w'.file p := by
  cases p with
  | root f => exact h.files (.root f)
  | user v f => exact (h.files (.user v f)).1 hown

theorem Agree.displayName_eq (h : Agree accounts uid w w') (v : String) :
    w.file (.user v .displayName) = w'.file (.user v .displayName) :=
  (h.files (.user v .displayName)).2

theorem Agree.templateSize_eq (h : Agree accounts uid w w') (v : String) (legacy : Bool) :
    w.templateSize v legacy = w'.templateSize v legacy := by
  cases legacy with
  | false => exact (h.files (.user v .embeddingEnc)).2
  | true => exact (h.files (.user v .embeddingBin)).2

theorem Agree.keys_perm (h : Agree accounts uid w w') : w.users.keys.Perm w'.users.keys := by
  apply (List.perm_ext_iff_of_nodup w.users.nodupKeys w'.users.nodupKeys).2
  intro v
  have hkeys : ∀ u : World, v ∈ u.users.keys ↔ u.hasDir (some v) = true := by
    intro u
    rw [hasDir, AList.lookup_isSome, AList.mem_keys]
  exact (hkeys w).trans ((Bool.eq_iff_iff.1 (h.dirs v)).trans (hkeys w').symm)

/-! ## What a step keeps -/

/-- The same operation with the same answer keeps the agreement, whatever it is. -/
theorem Agree.next (h : Agree accounts uid w w') (o : Op) (r : o.Ans) :
    Agree accounts uid (w.next o r) (w'.next o r) := by
  have hset : ∀ (p : Path) (d : p.Data), Agree accounts uid (w.set p d) (w'.set p d) := by
    intro p d
    refine ⟨fun q => ?_, fun v => ?_, fun v hv => ?_⟩
    · by_cases hq : q = p
      · subst hq
        rw [file_set_self, file_set_self]
        exact .refl _
      · rw [file_set_of_ne _ _ hq, file_set_of_ne _ _ hq]
        exact h.files q
    · rw [Bool.eq_iff_iff, hasDir_set, hasDir_set, h.dirs]
    · rw [cache_set, cache_set]
      exact h.cached v hv
  have herase : ∀ p : Path, Agree accounts uid (w.erase p) (w'.erase p) := by
    intro p
    refine ⟨fun q => ?_, fun v => ?_, fun v hv => ?_⟩
    · by_cases hq : q = p
      · subst hq
        rw [file_erase_self, file_erase_self]
        exact .refl _
      · rw [file_erase_of_ne _ hq, file_erase_of_ne _ hq]
        exact h.files q
    · rw [Bool.eq_iff_iff, hasDir_erase, hasDir_erase, h.dirs]
    · rw [cache_erase, cache_erase]
      exact h.cached v hv
  have hmkdir : ∀ u : Option String, Agree accounts uid (w.mkdir u) (w'.mkdir u) := by
    intro u
    refine ⟨fun q => ?_, fun v => ?_, fun v hv => ?_⟩
    · rw [file_mkdir, file_mkdir]
      exact h.files q
    · rw [Bool.eq_iff_iff, hasDir_mkdir, hasDir_mkdir, h.dirs]
    · rw [cache_mkdir, cache_mkdir]
      exact h.cached v hv
  have hrmdir : ∀ u : String, Agree accounts uid (w.rmdir u) (w'.rmdir u) := by
    intro u
    refine ⟨fun q => ?_, fun v => ?_, h.cached⟩
    · cases q with
      | root f => exact h.files (.root f)
      | user v f =>
          by_cases hv : v = u
          · subst hv
            rw [file_rmdir_self, file_rmdir_self]
            exact .refl _
          · rw [file_rmdir_of_ne _ _ hv, file_rmdir_of_ne _ _ hv]
            exact h.files _
    · by_cases hv : v = u
      · subst hv
        simp [hasDir, rmdir]
      · have hdirs := h.dirs v
        simp only [hasDir, rmdir, AList.lookup_erase_ne hv] at hdirs ⊢
        exact hdirs
  have hcache : ∀ f : (AList fun _ : String => Bytes) → AList fun _ : String => Bytes,
      (∀ v, accounts v = some uid → (f w.cache).lookup v = (f w'.cache).lookup v) →
      Agree accounts uid { w with cache := f w.cache } { w' with cache := f w'.cache } := by
    intro f hf
    refine ⟨fun q => ?_, h.dirs, hf⟩
    rw [file_withCache, file_withCache]
    exact h.files q
  cases o with
  | write p d => cases r with
    | ok u => exact hset p d
    | error e => exact h
  | removeFile p => cases r with
    | ok u => exact herase p
    | error e => exact h
  | createDirAll u => cases r with
    | ok _ => exact hmkdir u
    | error e => exact h
  | removeDir u => cases r with
    | ok _ => exact hrmdir u
    | error e => exact h
  | cacheInsert u k =>
      refine hcache (fun c => c.insert u k) fun v hv => ?_
      by_cases hvu : v = u
      · rw [hvu, AList.lookup_insert, AList.lookup_insert]
      · rw [AList.lookup_insert_ne hvu, AList.lookup_insert_ne hvu, h.cached v hv]
  | cacheRemove u =>
      refine hcache (fun c => c.erase u) fun v hv => ?_
      by_cases hvu : v = u
      · rw [hvu, AList.lookup_erase, AList.lookup_erase]
      · rw [AList.lookup_erase_ne hvu, AList.lookup_erase_ne hvu, h.cached v hv]
  | _ => exact h

/-! ## What the peer may reach -/

/-- Operations for the owner of `uid`: on the system, on the listing, on the names shown
in it, and on what belongs to that account. -/
def visible (accounts : String → Option Nat) (uid : Nat) (o : Op) : Prop :=
  systemOp o ∨ surveyOp o ∨ (∃ v, o = .read (.user v .displayName)) ∨
    ∃ v, accounts v = some uid ∧ userOp v anyFile o

theorem ownPath_of_parent {v : String} {p : Path} (hv : accounts v = some uid)
    (h : p.parent = none ∨ p.parent = some v) : ownPath accounts uid p := by
  cases p with
  | root f => trivial
  | user u f =>
      rcases h with h | h
      · cases h
      · obtain rfl : u = v := Option.some.inj h
        exact hv

private theorem ownPath_of_root {p : Path} (h : p.parent = none) : ownPath accounts uid p := by
  cases p with
  | root f => trivial
  | user u f => cases h

/-- Agreeing states give a visible operation the same possible answers. -/
theorem Agree.allows_eq (h : Agree accounts uid w w') {o : Op} (ho : visible accounts uid o)
    (r : o.Ans) : w.allows sealed flt o r = w'.allows sealed flt o r := by
  have hfile : ∀ {p : Path}, ownPath accounts uid p → w.file p = w'.file p := h.file_eq
  have hdir : ∀ {p : Path}, w.hasDir p.parent = w'.hasDir p.parent := by
    intro p
    cases p with
    | root f => rfl
    | user u f => exact h.dirs u
  have htemplate : ∀ u legacy, w.allows sealed flt (.templateLen u legacy) =
      w'.allows sealed flt (.templateLen u legacy) := by
    intro u legacy
    funext r
    simp only [allows, h.templateSize_eq u legacy]
  rcases ho with ho | ho | ⟨v, rfl⟩ | ⟨v, hv, ho⟩
  · cases o with
    | pathExists p | read p => simp only [allows, hfile (ownPath_of_root ho)]
    | tpmSeal s | tpmUnseal env => cases r <;> rfl
    | _ => first | exact ho.elim | rfl
  · cases o with
    | pathExists p =>
        obtain ⟨u, hp⟩ := ho
        have hsize := h.templateSize_eq u
        have hexists : (w.file p).isSome = (w'.file p).isSome := by
          rcases hp with rfl | rfl
          · have henc := congrArg Option.isSome (hsize false)
            rwa [templateSize, templateSize, Option.isSome_map, Option.isSome_map] at henc
          · have hbin := congrArg Option.isSome (hsize true)
            rwa [templateSize, templateSize, Option.isSome_map, Option.isSome_map] at hbin
        simp only [allows, hexists]
    | readRoot =>
        cases r with
        | ok names =>
            have hperm : names.isPerm w.users.keys = names.isPerm w'.users.keys := by
              rw [Bool.eq_iff_iff, List.isPerm_iff, List.isPerm_iff]
              exact h.keys_perm.congr_right names
            simp only [allows, ioAnswer, hperm]
        | error e => cases e <;> rfl
    | templateLen u legacy => exact congrFun (htemplate u legacy) r
    | _ => exact ho.elim
  · simp only [allows, h.displayName_eq v]
  · cases o with
    | pathExists p | read p => simp only [allows, hfile (ownPath_of_parent hv ho)]
    | write p d => simp only [allows, hdir]
    | setPermissions p | removeFile p =>
        obtain ⟨f, rfl, -⟩ := ho
        simp only [allows, h.file_eq (p := .user v f) hv]
    | templateLen u legacy => exact congrFun (htemplate u legacy) r
    | cacheGet u =>
        obtain rfl : u = v := ho
        simp only [allows, h.cached u hv]
    | readRoot | readUserDir u | removeDir u => exact ho.elim
    | tpmSeal s | tpmUnseal env => cases r <;> rfl
    | _ => rfl

theorem Agree.step (h : Agree accounts uid w w') {o : Op} {r : o.Ans} {v : World}
    (ho : visible accounts uid o) (hstep : Step sealed flt w o r v) :
    ∃ v', Step sealed flt w' o r v' ∧ Agree accounts uid v v' := by
  obtain ⟨hallows, rfl⟩ := hstep
  rw [h.allows_eq ho] at hallows
  exact ⟨_, ⟨hallows, rfl⟩, h.next o r⟩

/-! ## The requests -/

/-- The account database answers as `accounts` says. -/
def accountsAre (accounts : String → Option Nat) (e : Event host) : Prop :=
  ∀ v r, e = ⟨.uidForName v, r⟩ → r = accounts v

section Requests

variable {op : String} {handler : Proc Response}

theorem visible_of_userOp {o : Op} (hown : accounts user = some uid) (h : userOp user anyFile o) :
    visible accounts uid o := .inr (.inr (.inr ⟨user, hown, h⟩))

/-- For a peer other than root the check is that the account is its own. -/
theorem guided_peerMayActAs (huid : uid ≠ 0) :
    (peerMayActAs (some uid) user).Guided (accountsAre accounts) (visible accounts uid)
      fun mayAct => mayAct = true → accounts user = some uid := by
  have howner : Program.Guided (accountsAre accounts) (visible accounts uid)
      (fun mayAct => mayAct = true → accounts user = some uid) (do
        let owner ← perform (.uidForName user)
        pure (owner == some uid)) := by
    refine guided_perform_bind (.inl trivial) fun owner hanswer => .ret fun hmay => ?_
    rw [← hanswer user owner rfl]
    exact eq_of_beq hmay
  unfold peerMayActAs
  split
  · next h => exact absurd (Option.some.inj h) huid
  · next u hne h =>
      obtain rfl : uid = u := Option.some.inj h
      exact howner
  · next h => cases h

theorem guided_ownHandler (huid : uid ≠ 0) (h : handler.Only (userOp user anyFile)) :
    (ownAccount (some uid) op user handler).Guided (accountsAre accounts) (visible accounts uid)
      fun _ => True := by
  refine guided_bind (guided_peerMayActAs huid) fun mayAct hmay => ?_
  cases mayAct with
  | false => exact .ret trivial
  | true =>
      rw [if_neg (by decide)]
      unfold withUser
      split
      · exact .ret trivial
      · exact (h.imp fun _ => visible_of_userOp (hmay rfl)).guided

theorem rootOnly_unprivileged (huid : uid ≠ 0) :
    rootOnly (some uid) op user handler = pure (forbidden op) := by
  unfold rootOnly isRoot
  rw [if_pos]
  simpa using huid

private theorem guided_profile (huid : uid ≠ 0) (v : String) :
    Program.Guided (accountsAre accounts) (visible accounts uid) (fun _ => True) (do
      let mayAct ← peerMayActAs (some uid) v
      let hasPassword ← if mayAct then perform (.pathExists (.user v .passwordEnvelope))
        else pure false
      let name ← readProfileName v
      let samples ← profileSampleCount v
      pure { user := v, name := name, samples := samples, hasPassword := hasPassword :
        ProfileInfo }) := by
  have hname : (readProfileName v).Only (visible accounts uid) := by
    refine only_bind (only_perform (.inr (.inr (.inl ⟨v, rfl⟩)))) fun r => ?_
    split <;> exact .ret _
  have hcount : (profileSampleCount v).Only (visible accounts uid) :=
    survey_profileSampleCount.imp fun _ ho => .inr (.inl ho)
  have hrest : ∀ hasPassword : Bool, Program.Only (visible accounts uid) (do
      let name ← readProfileName v
      let samples ← profileSampleCount v
      pure ({ user := v, name := name, samples := samples, hasPassword := hasPassword } :
        ProfileInfo)) := fun hasPassword =>
    only_bind hname fun _ => only_bind hcount fun _ => .ret _
  refine guided_bind (guided_peerMayActAs huid) fun mayAct hmay => Program.Only.guided ?_
  cases mayAct with
  | false => exact hrest false
  | true =>
      have hpassword : visible accounts uid (.pathExists (.user v .passwordEnvelope)) :=
        visible_of_userOp (hmay rfl) (.inr rfl)
      exact only_bind (only_perform hpassword) hrest

/-- Whatever a peer other than root asks, only what it may see is touched. -/
theorem guided_unprivileged (huid : uid ≠ 0) (req : Request) :
    (dispatch pr req (some uid)).Guided (accountsAre accounts) (visible accounts uid)
      fun _ => True := by
  have hsystem : ∀ {handler : Proc Response}, handler.Only systemOp →
      handler.Guided (accountsAre accounts) (visible accounts uid) fun _ => True :=
    fun honly => (honly.imp fun _ => Or.inl).guided
  have hroot : isRoot (some uid) = false := by simpa [isRoot] using huid
  cases req with
  | status => exact hsystem system_doStatus
  | verify user =>
      simp only [dispatch, withUser]
      split
      · exact .ret trivial
      · refine guided_bind (guided_peerMayActAs huid) fun mayAct hmay => ?_
        cases mayAct with
        | false => exact .ret trivial
        | true => exact ((userOp_doVerify trivial trivial trivial).imp
            fun _ => visible_of_userOp (hmay rfl)).guided
  | authenticate user service =>
      exact guided_ownHandler huid (userOp_doAuthenticate trivial trivial trivial service _)
  | authIntent user service => exact guided_ownHandler huid (userOp_doAuthIntent service _)
  | policyStatus user => exact guided_ownHandler huid userOp_doPolicyStatus
  | diagnose => exact hsystem system_doDiagnose
  | livenessTest => exact hsystem system_doLivenessTest
  | probe => exact hsystem (only_bind (only_perform trivial) fun _ => .ret _)
  | positionSample => exact hsystem (only_bind (only_perform trivial) fun _ => .ret _)
  | listProfiles =>
      have hlist : enrolledProfiles.Only (visible accounts uid) :=
        survey_enrolledProfiles.imp fun _ ho => .inr (.inl ho)
      refine guided_bind hlist.guided fun users _ => ?_
      exact guided_bind (guided_mapM fun v _ => guided_profile huid v) fun _ _ => .ret trivial
  | reseal | identify =>
      simp only [dispatch, hroot, Bool.not_false, if_pos]
      exact .ret trivial
  | enroll user reset | «unseal» user | sealPassword user password | unsealPassword user
  | resealUserEnvelopes user | setProfileName user name | deleteProfile user
  | saveRecovery user passphrase | restoreFromRecovery user passphrase =>
      simp only [dispatch, rootOnly_unprivileged huid]
      exact .ret trivial

end Requests

/-! ## The law -/

/-- Operations the state leaves open: what the devices, the TPM and the account database
answer, and the order of a listing. -/
def surroundings : Op → Prop
  | .pathExists _ | .read _ | .write _ _ | .setPermissions _ | .removeFile _ | .createDirAll _
  | .templateLen _ _ | .cacheGet _ | .cacheInsert _ _ | .cacheRemove _ => False
  | _ => True

theorem ioAnswer_unique {α : Type} {present : Bool} {ok : α → Bool} {r r' : Except IoError α}
    (hok : ∀ a b, ok a = true → ok b = true → a = b) (h : ioAnswer present false ok r = true)
    (h' : ioAnswer present false ok r' = true) : r = r' := by
  cases r with
  | ok a =>
      have ha : present = true ∧ ok a = true := by simpa [ioAnswer] using h
      cases r' with
      | ok b =>
          have hb : present = true ∧ ok b = true := by simpa [ioAnswer] using h'
          rw [hok a b ha.2 hb.2]
      | error e => cases e <;> simp [ioAnswer, ha.1] at h'
  | error e =>
      cases e with
      | other msg => cases h
      | notFound =>
          have hnot : present = false := by simpa [ioAnswer] using h
          cases r' with
          | ok b => simp [ioAnswer, hnot] at h'
          | error e' =>
              cases e' with
              | notFound => rfl
              | other msg => cases h'

private theorem answer_settled {o : Op} {r r' : o.Ans} {v v' : World} (ho : ¬ surroundings o)
    (h : Step sealed .none w o r v) (h' : Step sealed .none w o r' v') : r = r' := by
  obtain ⟨hr, -⟩ := h
  obtain ⟨hr', -⟩ := h'
  have hunit : ∀ a b : Unit, (fun _ : Unit => true) a = true → (fun _ : Unit => true) b = true →
      a = b := fun _ _ _ _ => rfl
  cases o with
  | pathExists p =>
      simp only [allows, Faults.none, Bool.false_and, Bool.or_false, beq_iff_eq] at hr hr'
      rw [hr, hr']
  | read p =>
      refine ioAnswer_unique (fun a b ha hb => ?_) hr hr'
      rw [decide_eq_true_eq] at ha hb
      exact Option.some.inj (ha.symm.trans hb)
  | write p d | setPermissions p | removeFile p | createDirAll u =>
    exact ioAnswer_unique hunit hr hr'
  | templateLen u legacy =>
      refine ioAnswer_unique (fun a b ha hb => ?_) hr hr'
      rw [decide_eq_true_eq] at ha hb
      exact Option.some.inj (ha.symm.trans hb)
  | cacheGet u =>
      rw [allows, decide_eq_true_eq] at hr hr'
      rw [hr, hr']
  | cacheInsert u k | cacheRemove u => rfl
  | _ => exact absurd trivial ho

/-- A peer other than root gets the same response in two states that agree for it. Every run in
the one state has its like in the other, operation by operation; and without faults two runs
with the same surroundings have the same response. -/
theorem noninterference {w₁ w₂ : World} (huid : uid ≠ 0) (hagree : Agree accounts uid w₁ w₂)
    (req : Request) :
    (∀ resp events v₁,
      Exec (recorded (Step sealed flt)) (dispatch pr req (some uid)) (w₁, []) resp (v₁, events) →
      (∀ e ∈ events, accountsAre accounts e) →
      ∃ v₂, Exec (recorded (Step sealed flt)) (dispatch pr req (some uid)) (w₂, []) resp
          (v₂, events) ∧ Agree accounts uid v₁ v₂) ∧
    (∀ resp₁ resp₂ events₁ events₂ v₁ v₂,
      Exec (recorded (Step sealed .none)) (dispatch pr req (some uid)) (w₁, []) resp₁
        (v₁, events₁) →
      Exec (recorded (Step sealed .none)) (dispatch pr req (some uid)) (w₂, []) resp₂
        (v₂, events₂) →
      (∀ e ∈ events₁, accountsAre accounts e) → Alike surroundings events₁ events₂ →
      resp₁ = resp₂ ∧ Agree accounts uid v₁ v₂) := by
  have hlike : ∀ {flt : Faults} {resp events v₁},
      Exec (recorded (Step sealed flt)) (dispatch pr req (some uid)) (w₁, []) resp (v₁, events) →
      (∀ e ∈ events, accountsAre accounts e) →
      ∃ v₂, Exec (recorded (Step sealed flt)) (dispatch pr req (some uid)) (w₂, []) resp
          (v₂, events) ∧ Agree accounts uid v₁ v₂ := by
    intro flt resp events v₁ h haccounts
    have hstep : ∀ {w w' v : World} {o : Op} {r : o.Ans}, visible accounts uid o →
        Agree accounts uid w w' → Step sealed flt w o r v →
        ∃ v', Step sealed flt w' o r v' ∧ Agree accounts uid v v' :=
      fun ho hR hS => hR.step ho hS
    exact (guided_unprivileged huid req).simulates hstep h haccounts hagree
  refine ⟨fun resp events v₁ => hlike, ?_⟩
  intro resp₁ resp₂ events₁ events₂ v₁ v₂ h₁ h₂ haccounts halike
  obtain ⟨v, hv, hend⟩ := hlike h₁ haccounts
  obtain ⟨hresp, hworld⟩ := exec_of_alike answer_settled (fun h h' => h.2.trans h'.2.symm) hv h₂
    halike
  obtain ⟨rfl, -⟩ := Prod.mk.inj hworld
  exact ⟨hresp, hend⟩

/-- A stranger lists the profiles: whether there is a password does not show. -/
theorem noninterference_simulated :
    ∃ resp events v₁ v₂,
      Exec (recorded (Step simulatedUnseal .none))
        (dispatch simulatedProcess .listProfiles (some 1001)) (enrolledWorld "alice", []) resp
        (v₁, events) ∧
      Exec (recorded (Step simulatedUnseal .none))
        (dispatch simulatedProcess .listProfiles (some 1001))
        ((enrolledWorld "alice").erase (.user "alice" .passwordEnvelope), []) resp
        (v₂, events) := by
  let accounts : String → Option Nat := fun _ => some 1000
  have hagree : Agree accounts 1001 (enrolledWorld "alice")
      ((enrolledWorld "alice").erase (.user "alice" .passwordEnvelope)) := by
    refine ⟨fun p => ?_, fun v => ?_, fun v hv => ?_⟩
    · by_cases hp : p = .user "alice" .passwordEnvelope
      · subst hp
        exact ⟨fun h => absurd h (by decide), trivial⟩
      · rw [file_erase_of_ne _ hp]
        exact .refl _
    · have halice : (enrolledWorld "alice").hasDir (some "alice") = true := by
        simp [enrolledWorld, hasDir, World.set]
      rw [Bool.eq_iff_iff, hasDir_erase]
      constructor
      · exact .inr
      · rintro (h | h)
        · rw [← h]
          exact halice
        · exact h
    · rfl
  let env : Surroundings :=
    ⟨simulatedScript.answer simulatedUnseal emptyWorld, fun _ => List.length_replicate⟩
  obtain ⟨resp, v₁, hexec⟩ := @answers_calm env simulatedUnseal _ simulatedUnseal_seals
    (dispatch simulatedProcess .listProfiles (some 1001)) (enrolledWorld "alice")
  obtain ⟨events, hrecorded⟩ := exec_recorded hexec []
  have haccounts : ∀ e ∈ events, accountsAre accounts e := by
    intro e he
    refine (forall_recorded (A := accountsAre accounts) (fun {v o r v'} hstep => ?_) hrecorded e
      he).resolve_left List.not_mem_nil
    rintro u r' heq
    cases heq
    exact hstep.2 rfl
  have hfaultless : Exec (recorded (Step simulatedUnseal .none))
      (dispatch simulatedProcess .listProfiles (some 1001)) (enrolledWorld "alice", []) resp
      (v₁, events) := exec_mono (fun _ _ _ _ h => ⟨h.1.1, h.2⟩) hrecorded
  obtain ⟨v₂, hsame, -⟩ :=
    (noninterference (by decide) hagree .listProfiles).1 resp events v₁ hfaultless haccounts
  exact ⟨resp, events, v₁, v₂, hfaultless, hsame⟩

end Linhello.Daemon
