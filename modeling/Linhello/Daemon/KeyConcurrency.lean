import Linhello.Daemon.KeyConsistency
/-!
# Key consistency under concurrency

A request that deletes the profile keeps the promise too, as long as nothing fails
and the others are orderly: what it has not unlinked yet is all that is left. So
every pool of orderly requests leaves one key for the profile.
-/

namespace Linhello.Daemon

open Common Linhello.Core Effect Host Host.World

variable {ι : Type} [DecidableEq ι] {sealed : SealedEnvelope → Option Bytes} {cl : CryptoLib}
  {user : String} {i : ι} {x y : World × Log host ι} {Allowed : Rule host ι World}

/-! ## What a deletion knows -/

section Deletion

variable (sealed : SealedEnvelope → Option Bytes) (cl : CryptoLib) (user : String)

/-- Thread `i` is deleting the profile; only the files in `rest` can be left. -/
structure Deleting (i : ι) (rest : List UserFile) (x : World × Log host ι) : Prop where
  sound : Sound sealed cl user x
  phase : (watch user x.2).phase i = .removing
  left : ∀ f, (x.1.file (.user user f)).isSome = true → f ∈ rest

/-- Thread `i` has removed the directory and has yet to evict the key. -/
structure Evicting (i : ι) (x : World × Log host ι) : Prop where
  sound : Sound sealed cl user x
  phase : (watch user x.2).phase i = .evicting
  dir : x.1.hasDir (some user) = false

end Deletion

variable {rest : List UserFile}

theorem stable_deleting :
    Stable (KeyPromise sealed cl user) i (Deleting sealed cl user i rest) := by
  rintro x y hx ⟨j, hji, hG⟩
  obtain ⟨e, hlog, -⟩ := hG.event
  have hbusy : (watch user x.2).Busy j := ⟨i, hji.symm, by rw [hx.phase]; simp⟩
  refine ⟨hG.sound hx.sound, ?_, fun f hf => hx.left f ((hG.shrinks hbusy).1 f hf)⟩
  rw [hlog, phase_other hji.symm, hx.phase]

theorem stable_evicting : Stable (KeyPromise sealed cl user) i (Evicting sealed cl user i) := by
  rintro x y hx ⟨j, hji, hG⟩
  obtain ⟨e, hlog, -⟩ := hG.event
  have hbusy : (watch user x.2).Busy j := ⟨i, hji.symm, by rw [hx.phase]; simp⟩
  refine ⟨hG.sound hx.sound, ?_, ?_⟩
  · rw [hlog, phase_other hji.symm, hx.phase]
  · by_contra hdir
    have hback := (hG.shrinks hbusy).2 (Bool.eq_true_of_not_eq_false hdir)
    rw [hx.dir] at hback
    cases hback

section Steps

variable {o : Op} {r : o.Ans} (hrule : ∀ w log i e, Allowed w log i e → Orderly user w log i e)

include hrule

/-- The promise of a step inside a deletion: nothing has to agree meanwhile. -/
theorem KeyPromise.of_deletion
    (hS : logged (World.Step sealed .none) Allowed i x o r y)
    (hphase : (watch user x.2).phase i ≠ .idle)
    (hsound : Sound sealed cl user x → Sound sealed cl user y) :
    KeyPromise sealed cl user i x y := by
  obtain ⟨hstep, hlog, hallowed⟩ := hS
  refine ⟨⟨⟨o, r⟩, hlog, fun hnone hsome => ?_⟩, hsound, fun hall => absurd (hall i) hphase,
    shrinks_of_orderly hstep (hrule _ _ _ _ hallowed)⟩
  rw [hstep.2] at hsome
  exact writesKey_of_appears hnone hsome

omit hrule in
/-- While thread `i` is deleting, a step that neither removes the directory nor
touches the cache keeps every state sound. -/
theorem sound_of_deletion (hS : logged (World.Step sealed .none) Allowed i x o r y)
    (hphase : (watch user x.2).phase i ≠ .evicting)
    (hphase' : (watch user y.2).phase i ≠ .idle) (hdir : ∀ v, o ≠ .removeDir v)
    (hcache : y.1.cache = x.1.cache) (hsound : Sound sealed cl user x) :
    Sound sealed cl user y := by
  refine ⟨fun hall => absurd (hall i) hphase', fun hnodir hcached => ?_⟩
  have hnodir' : x.1.hasDir (some user) = false := by
    by_contra h
    have hkept := hasDir_next (r := r) hdir (Bool.eq_true_of_not_eq_false h)
    rw [← hS.1.2, hnodir] at hkept
    cases hkept
  rw [hcache] at hcached
  obtain ⟨d, hd⟩ := hsound.evicts hnodir' hcached
  have hdi : d ≠ i := by
    rintro rfl
    exact hphase hd
  exact ⟨d, by rw [hS.2.1, phase_other hdi, hd]⟩

theorem tries_readUserDir :
    Attempts (logged (World.Step sealed .none) Allowed) (KeyPromise sealed cl user) i
      (Sees sealed cl user i .nothing) (ExceptT.mk (perform (.readUserDir user)))
      (fun entries => Deleting sealed cl user i entries) (Sees sealed cl user i .nothing) := by
  refine Promises.perform stable_sees ?_ ?_
  · rintro (e | entries)
    · exact stable_sees
    · exact stable_deleting
  intro x r y hx hS
  have hsame : y.1 = x.1 := hS.1.2
  rcases r with e | entries
  · have hnext : Phase.next user .idle ⟨.readUserDir user, Except.error e⟩ = .idle :=
      if_neg fun h => Bool.false_ne_true h.2
    exact kept_step (s := .nothing) hrule hS hx id hnext (by simp) (by rw [hsame])
      (fun _ h => by rwa [hsame]) fun _ h => by rwa [hsame] at h
  · have hphase : (watch user y.2).phase i = .removing := by
      rw [hS.2.1, phase_self, hx.idle]
      exact if_pos ⟨rfl, rfl⟩
    have hsound : Sound sealed cl user x → Sound sealed cl user y := fun h =>
      sound_of_deletion hS (by rw [hx.idle]; simp) (by rw [hphase]; simp)
        (by simp) (by rw [hsame]) h
    refine ⟨⟨⟨_, hS.2.1, fun hnone hsome => absurd (by rwa [hsame]) hsome⟩, hsound,
      fun _ k hk => by rwa [hsame], shrinks_of_orderly hS.1 (hrule _ _ _ _ hS.2.2)⟩,
      hsound hx.sound, hphase, fun f hf => ?_⟩
    have hperm : entries.Perm (x.1.dir user).keys := by
      have hallows := hS.1.1
      simp only [allows, ioAnswer, Bool.and_eq_true, List.isPerm_iff] at hallows
      exact hallows.2
    rw [hsame, file_user] at hf
    exact hperm.mem_iff.2 (AList.lookup_isSome.1 hf)

/-- One file after the other is unlinked; another deletion may have been faster. -/
theorem tries_removeFile (f : UserFile) :
    Attempts (logged (World.Step sealed .none) Allowed) (KeyPromise sealed cl user) i
      (Deleting sealed cl user i (f :: rest))
      (ExceptT.mk (ignoreMissing <$> perform (.removeFile (.user user f))))
      (fun _ => Deleting sealed cl user i rest) (Sees sealed cl user i .nothing) := by
  refine Promises.map (Promises.perform stable_deleting ?_ ?_)
  · rintro ((_ | msg) | u)
    · exact stable_deleting
    · exact stable_sees
    · exact stable_deleting
  intro x r y hx hS
  have hnofault : ∀ msg, r ≠ Except.error (.other msg) := by
    rintro msg rfl
    cases hS.1.1
  have hphase : (watch user y.2).phase i = .removing := by
    rw [hS.2.1, phase_self, hx.phase]
    rcases r with (_ | msg) | u
    · rfl
    · exact absurd rfl (hnofault msg)
    · rfl
  have hcache : y.1.cache = x.1.cache := by
    rw [hS.1.2]
    rcases r with e | u
    · rfl
    · exact cache_erase ..
  have hsound : Sound sealed cl user x → Sound sealed cl user y :=
    sound_of_deletion hS (by rw [hx.phase]; simp) (by rw [hphase]; simp) (by simp) hcache
  have hleft : ∀ g, (y.1.file (.user user g)).isSome = true → g ∈ rest := by
    intro g hg
    have hgone : y.1.file (.user user f) = none := by
      rw [hS.1.2]
      rcases r with (_ | msg) | u
      · have hallows := hS.1.1
        have hnone : x.1.file (.user user f) = none := by simpa [allows, ioAnswer] using hallows
        exact hnone
      · exact absurd rfl (hnofault msg)
      · exact file_erase_self x.1 (.user user f)
    have hgf : g ≠ f := by
      rintro rfl
      rw [hgone] at hg
      cases hg
    have hgx : (x.1.file (.user user g)).isSome = true := by
      rw [hS.1.2] at hg
      rcases r with e | u
      · exact hg
      · have hne : Path.user user g ≠ .user user f := by simpa using hgf
        rwa [World.next, file_erase_of_ne _ hne] at hg
    exact (List.mem_cons.1 (hx.left g hgx)).resolve_left hgf
  refine ⟨KeyPromise.of_deletion hrule hS (by rw [hx.phase]; simp) hsound, ?_⟩
  rcases r with (_ | msg) | u
  · exact ⟨hsound hx.sound, hphase, hleft⟩
  · exact absurd rfl (hnofault msg)
  · exact ⟨hsound hx.sound, hphase, hleft⟩

/-- The emptied directory is removed, unless another deletion has done so. -/
theorem tries_removeDir :
    Attempts (logged (World.Step sealed .none) Allowed) (KeyPromise sealed cl user) i
      (Deleting sealed cl user i []) (ExceptT.mk (perform (.removeDir user)))
      (fun _ => Evicting sealed cl user i) (Sees sealed cl user i .nothing) := by
  refine Promises.perform stable_deleting ?_ ?_
  · rintro (e | u)
    · exact stable_sees
    · exact stable_evicting
  intro x r y hx hS
  have hempty : ∀ f, x.1.file (.user user f) = none := by
    intro f
    by_contra hf
    exact List.not_mem_nil (hx.left f (Option.isSome_iff_ne_none.2 hf))
  have hallows := hS.1.1
  rcases r with (_ | msg) | u
  · -- somebody else has removed it, and is about to evict the key or has done so
    have hsame : y.1 = x.1 := hS.1.2
    have hdir : x.1.hasDir (some user) = false := by simpa [allows, ioAnswer, hasDir] using hallows
    have hidle : (watch user y.2).phase i = .idle := by
      rw [hS.2.1, phase_self, hx.phase]
      rfl
    have hevicting : ∀ d, (watch user x.2).phase d = .evicting →
        (watch user y.2).phase d = .evicting := by
      intro d hd
      have hdi : d ≠ i := by
        rintro rfl
        rw [hx.phase] at hd
        cases hd
      rw [hS.2.1, phase_other hdi, hd]
    have hsound : Sound sealed cl user x → Sound sealed cl user y := by
      intro h
      constructor
      · intro hall
        rw [hsame]
        refine .of_none ?_ (hempty _) (hempty _)
        by_contra hcached
        obtain ⟨d, hd⟩ := h.evicts hdir (Option.isSome_iff_ne_none.2 hcached)
        have hd' := hevicting d hd
        rw [hall d] at hd'
        cases hd'
      · intro hnodir hcached
        rw [hsame] at hnodir hcached
        obtain ⟨d, hd⟩ := h.evicts hnodir hcached
        exact ⟨d, hevicting d hd⟩
    exact ⟨KeyPromise.of_deletion hrule hS (by rw [hx.phase]; simp) hsound, hsound hx.sound, hidle,
      trivial⟩
  · -- without a fault, only an entry would be in the way
    exfalso
    have hentries : (x.1.dir user).keys ≠ [] := by
      intro hkeys
      simp [allows, ioAnswer, Faults.none, hkeys] at hallows
    obtain ⟨f, hf⟩ := List.exists_mem_of_ne_nil _ hentries
    have hsome := AList.lookup_isSome.2 hf
    rw [← file_user, hempty f] at hsome
    cases hsome
  · have hgone : y.1 = x.1.rmdir user := hS.1.2
    have hphase : (watch user y.2).phase i = .evicting := by
      rw [hS.2.1, phase_self, hx.phase]
      rfl
    have hsound : Sound sealed cl user x → Sound sealed cl user y := by
      refine fun _ => ⟨fun hall => ?_, fun _ _ => ⟨i, hphase⟩⟩
      rw [hall i] at hphase
      cases hphase
    refine ⟨KeyPromise.of_deletion hrule hS (by rw [hx.phase]; simp) hsound,
      hsound hx.sound, hphase, ?_⟩
    rw [hgone]
    simp [hasDir, rmdir]

theorem runs_evict :
    Promises (logged (World.Step sealed .none) Allowed) (KeyPromise sealed cl user) i
      (Evicting sealed cl user i) (perform (.cacheRemove user))
      fun _ => Sees sealed cl user i .nothing := by
  refine Promises.perform stable_evicting (fun _ => stable_sees) ?_
  intro x r y hx hS
  have hdrop : y.1 = { x.1 with cache := x.1.cache.erase user } := hS.1.2
  have hnone : y.1.cache.lookup user = none := by
    rw [hdrop]
    exact AList.lookup_erase _ _
  have hfile : ∀ f, y.1.file (.user user f) = none := by
    intro f
    rw [hdrop, file_withCache]
    exact file_of_not_hasDir hx.dir f
  have hidle : (watch user y.2).phase i = .idle := by
    rw [hS.2.1, phase_self]
    rfl
  have hsound : Sound sealed cl user x → Sound sealed cl user y := by
    refine fun _ => ⟨fun _ => .of_none hnone (hfile _) (hfile _), fun _ hcached => ?_⟩
    rw [hnone] at hcached
    cases hcached
  exact ⟨KeyPromise.of_deletion hrule hS (by rw [hx.phase]; simp) hsound, hsound hx.sound, hidle,
    trivial⟩

private theorem tries_removeEntries (entries : List UserFile) :
    Attempts (logged (World.Step sealed .none) Allowed) (KeyPromise sealed cl user) i
      (Deleting sealed cl user i entries) (removeEntries user entries)
      (fun _ => Evicting sealed cl user i) (Sees sealed cl user i .nothing) := by
  induction entries with
  | nil => exact tries_removeDir hrule
  | cons f rest ih => exact (tries_removeFile hrule f).bind stable_sees fun _ => ih

private theorem runs_doDeleteProfile :
    Runs sealed cl user i .none Allowed .nothing (doDeleteProfile user)
      fun _ => Sees sealed cl user i .nothing := by
  have hsurvey : ∀ {o : Op}, surveyOp o → Benign user o := by
    intro o ho
    cases o with
    | pathExists p =>
        obtain ⟨u, rfl | rfl⟩ := ho <;> simp [Benign]
    | readRoot => trivial
    | templateLen u legacy => trivial
    | _ => exact ho.elim
  refine Promises.bind (runs_only hrule (survey_enrolledProfiles.imp fun _ => hsurvey))
    fun profiles => ?_
  split
  · exact Promises.ret stable_sees fun _ h => h
  · refine Promises.bind (runs_only hrule (survey_profileSampleCount.imp fun _ => hsurvey))
      fun n => ?_
    have hremove := (@tries_readUserDir _ _ sealed cl user i _ hrule).bind stable_sees
      fun entries => tries_removeEntries hrule entries
    refine Promises.bind hremove fun r => ?_
    cases r with
    | error e => exact Promises.ret stable_sees fun _ h => h
    | ok u => exact Promises.bind (runs_evict hrule) fun _ => Promises.ret stable_sees fun _ h => h

end Steps

/-! ## Pools -/

/-- Once all requests of an orderly pool have answered, the profile has one key. -/
theorem key_consistent_of_orderly {pr : Process} {reqs : ι → Request} {peers : ι → Option Nat}
    {qs : ι → Proc Response} {w v : World} {log : Log host ι} (hauth : Authentic pr.cl)
    (hstart : KeysAgree sealed pr.cl user w)
    (hreqs : ∀ i, KeyRequest user (reqs i) ∨ reqs i = .deleteProfile user)
    (hrun : Interleaved (World.Step sealed .none) (fun i => dispatch pr (reqs i) (peers i)) w log
      qs v)
    (horderly : Obeys (World.Step sealed .none) (Orderly user)
      (fun i => dispatch pr (reqs i) (peers i)) w log)
    (hdone : ∀ i, ∃ resp, qs i = .ret resp) : KeyConsistent sealed pr.cl user v := by
  have hguarded : ∀ i, Guarded (logged (World.Step sealed .none) (Orderly user))
      (KeyPromise sealed pr.cl user) i (fun _ => Sees sealed pr.cl user i .nothing) (qs i)
      (v, log) := by
    refine hrun.guarded horderly fun i => ?_
    have hpromises : Runs sealed pr.cl user i .none (Orderly user) .nothing
        (dispatch pr (reqs i) (peers i)) fun _ => Sees sealed pr.cl user i .nothing := by
      rcases hreqs i with hreq | hreq
      · exact runs_dispatch (fun _ _ _ _ h => h) rfl hauth hreq
      · rw [hreq]
        exact runs_rootOnly (runs_doDeleteProfile fun _ _ _ _ h => h)
    exact hpromises (sees_start hstart)
  have hend : ∀ i, Sees sealed pr.cl user i .nothing (v, log) := by
    intro i
    have hi := hguarded i
    obtain ⟨resp, hresp⟩ := hdone i
    rw [hresp] at hi
    exact hi.result
  rcases isEmpty_or_nonempty ι with hempty | ⟨⟨i⟩⟩
  · cases hrun with
    | nil => exact hstart.consistent
    | snoc i => exact isEmptyElim i
  · exact ((hend i).sound.agree fun d => (hend d).idle).consistent

/-! ## Deciding the rule on a log -/

section Decide

variable {user : String} {e : Event host}

def opens (user : String) (e : Event host) : Bool :=
  match e with
  | ⟨.readUserDir u, r⟩ => u = user && Except.isOk r
  | _ => false

def contact (user : String) (e : Event host) : Bool :=
  match e with
  | ⟨.cacheGet u, _⟩ => u = user
  | ⟨.pathExists p, _⟩ => p = .user user .templateKeyEnvelope
  | ⟨.read p, _⟩ => p = .user user .templateKeyEnvelope ∨ p = .user user .recoveryEnvelope
  | ⟨.write p _, r⟩ => p = .user user .templateKeyEnvelope && Except.isOk r
  | _ => false

def foundNoKey (user : String) (e : Event host) : Bool :=
  match e with
  | ⟨.pathExists p, r⟩ => p = .user user .templateKeyEnvelope && !r
  | _ => false

def writesKey (user : String) (e : Event host) : Bool :=
  match e with
  | ⟨.write p _, r⟩ => p = .user user .templateKeyEnvelope && Except.isOk r
  | _ => false

theorem isOk_iff {r : Except IoError Unit} : Except.isOk r = true ↔ r = .ok () := by
  cases r with
  | error e => simp [Except.isOk, Except.toBool]
  | ok u => simp [Except.isOk, Except.toBool]

theorem opens_iff : opens user e = true ↔ Opens user e := by
  obtain ⟨o, r⟩ := e
  cases o <;> simp [opens, Opens]

theorem contact_iff : contact user e = true ↔ Contact user e := by
  obtain ⟨o, r⟩ := e
  cases o <;> simp [contact, Contact, isOk_iff]

theorem foundNoKey_iff : foundNoKey user e = true ↔ FoundNoKey user e := by
  obtain ⟨o, r⟩ := e
  cases o <;> simp [foundNoKey, FoundNoKey]

theorem writesKey_iff : writesKey user e = true ↔ WritesKey user e := by
  obtain ⟨o, r⟩ := e
  cases o <;> simp [writesKey, WritesKey, isOk_iff]

instance : Decidable (Opens user e) := decidable_of_iff _ opens_iff
instance : Decidable (Contact user e) := decidable_of_iff _ contact_iff
instance : Decidable (FoundNoKey user e) := decidable_of_iff _ foundNoKey_iff
instance : Decidable (WritesKey user e) := decidable_of_iff _ writesKey_iff

/-- A watch of which every part can be evaluated. -/
structure Watch.Decided (s : Watch ι) where
  creating : ∀ j, Decidable (s.creating j)
  overlapped : ∀ j, Decidable (s.overlapped j)
  raced : ∀ j, Decidable (s.raced j)

instance (s : Watch Bool) (i : Bool) : Decidable (s.Busy i) :=
  inferInstanceAs (Decidable (∃ d, d ≠ i ∧ s.phase d ≠ .idle))

def Watch.Decided.observe {s : Watch Bool} (d : s.Decided) (user : String) (i : Bool)
    (e : Event host) : (s.observe user i e).Decided :=
  haveI := d.creating
  haveI := d.overlapped
  haveI := d.raced
  { creating := fun j => inferInstanceAs (Decidable (if j = i then
      FoundNoKey user e ∨ ¬ Contact user e ∧ s.creating i else s.creating j))
    overlapped := fun j => inferInstanceAs (Decidable (if j = i then
      Contact user e ∧ s.Busy i ∨ ¬ Contact user e ∧ s.overlapped i
      else s.overlapped j ∨ Opens user e))
    raced := fun j => inferInstanceAs (Decidable (if j = i then ¬ Contact user e ∧ s.raced i
      else s.raced j ∨ s.creating j ∧ WritesKey user e)) }

def decidedFrom (user : String) : (log : Log host Bool) → {s : Watch Bool} → s.Decided →
    (log.foldl (fun s e => s.observe user e.1 e.2) s).Decided
  | [], _, d => d
  | e :: log, _, d => decidedFrom user log (d.observe user e.1 e.2)

def decidedWatch (user : String) (log : Log host Bool) : (watch user log).Decided :=
  decidedFrom user log
    ⟨fun _ => instDecidableFalse, fun _ => instDecidableFalse, fun _ => instDecidableFalse⟩

/-- The event changes what is stored for the user. -/
def stores (user : String) (e : Event host) : Bool :=
  match e with
  | ⟨.write p _, _⟩ => p.parent = some user
  | ⟨.createDirAll u, _⟩ => u = some user
  | ⟨.cacheInsert u _, _⟩ => u = user
  | _ => false

/-- A request stores something only while no other is in its way. -/
def Unhindered (user : String) (log : Log host Bool) (i : Bool) (e : Event host) : Prop :=
  stores user e = true → ¬ (watch user log).Busy i ∧ ¬ (watch user log).overlapped i ∧
    ¬ (watch user log).raced i

instance (user : String) (log : Log host Bool) (i : Bool) (e : Event host) :
    Decidable (Unhindered user log i e) :=
  haveI := (decidedWatch user log).overlapped
  haveI := (decidedWatch user log).raced
  inferInstanceAs (Decidable (_ → ¬ _ ∧ ¬ _ ∧ ¬ _))

theorem Unhindered.orderly {log : Log host Bool} {i : Bool} (h : Unhindered user log i e)
    (w : World) : Orderly user w log i e := by
  obtain ⟨o, r⟩ := e
  cases o with
  | write p d =>
      intro _ hp
      obtain ⟨hbusy, hseen, hraced⟩ := h (decide_eq_true hp)
      exact ⟨hbusy, fun _ => .inl ⟨hseen, hraced⟩, fun _ => hseen⟩
  | createDirAll u => exact fun _ hu => (h (decide_eq_true hu)).1
  | cacheInsert u key => exact fun hu => (h (decide_eq_true hu)).2.1
  | _ => trivial

end Decide

/-- The host of the second request draws other random bytes. -/
def otherScript : Script := { simulatedScript with random := fun n => List.replicate n 8 }

/-- An enrollment is at the camera while the profile is deleted, and looks for the key
after that. -/
def deletedBeforehand : Bool → Request
  | false => .enroll "alice" false
  | true => .deleteProfile "alice"

def inTurn : List (Bool × Responder) :=
  List.replicate 3 (false, otherScript.answer simulatedUnseal) ++
    List.replicate 6 (true, simulatedScript.answer simulatedUnseal) ++
    List.replicate 2 (false, otherScript.answer simulatedUnseal) ++
    List.replicate 3 (true, simulatedScript.answer simulatedUnseal) ++
    List.replicate 28 (false, otherScript.answer simulatedUnseal)

theorem key_consistent_of_orderly_simulated : ∃ (log : Log host Bool)
    (qs : Bool → Program host Response) (v : World),
    Interleaved (World.Step simulatedUnseal .none)
      (fun i => dispatch simulatedProcess (deletedBeforehand i) (some 0)) (enrolledWorld "alice")
      log qs v ∧
    log.map Prod.fst = inTurn.map Prod.fst ∧ qs false = .ret (.enrolled 1) ∧
    (v.file (.user "alice" .embeddingEnc)).isSome = true ∧
    KeyConsistent simulatedUnseal simulatedCrypto "alice" v := by
  have hrun : ((scheduleLog (World.step simulatedUnseal .none)
      (fun i => dispatch simulatedProcess (deletedBeforehand i) (some 0)) (enrolledWorld "alice")
      [] inTurn).map fun x => Decidable.decide
        ((x.1 false).result? = some (.enrolled 1) ∧ (x.1 true).result?.isSome = true ∧
          (x.2.1.file (.user "alice" .embeddingEnc)).isSome = true ∧
          x.2.2.map Prod.fst = inTurn.map Prod.fst ∧
          checked (fun pre i e => Decidable.decide (Unhindered "alice" pre i e)) [] x.2.2 =
            true)) = some true := by
    decide +kernel
  obtain ⟨⟨qs, v, log⟩, hschedule, htests⟩ := Option.map_eq_some_iff.1 hrun
  obtain ⟨hfalse, htrue, hfile, hturns, hchecked⟩ := of_decide_eq_true htests
  have hpool := Interleaved.scheduleLog (fun _ _ _ _ _ => step_sound) (.nil _ _) hschedule
  have horderly : Obeys (World.Step simulatedUnseal .none) (Orderly "alice")
      (fun i => dispatch simulatedProcess (deletedBeforehand i) (some 0)) (enrolledWorld "alice")
      log :=
    obeys_of_checked (fun _ _ _ _ w _ h => Unhindered.orderly (of_decide_eq_true h) w) hchecked
  have henrolled := Program.eq_ret_of_result? hfalse
  have hdone : ∀ i, ∃ resp, qs i = .ret resp := by
    rintro (_ | _)
    · exact ⟨_, henrolled⟩
    · obtain ⟨resp, hresp⟩ := Option.isSome_iff_exists.1 htrue
      exact ⟨resp, Program.eq_ret_of_result? hresp⟩
  have hreqs : ∀ i, KeyRequest "alice" (deletedBeforehand i) ∨
      deletedBeforehand i = .deleteProfile "alice" := by
    rintro (_ | _)
    · exact .inl (.enroll false)
    · exact .inr rfl
  exact ⟨log, qs, v, hpool, hturns, henrolled, hfile,
    key_consistent_of_orderly authentic_simulatedCrypto (keysAgree_enrolledWorld "alice") hreqs
      hpool horderly hdone⟩

/-- Two first enrollments: both find no key, the first writes its key last, the second
its template. -/
def racingEnrolls : List (Bool × Responder) :=
  List.replicate 7 (false, simulatedScript.answer simulatedUnseal) ++
    List.replicate 11 (true, otherScript.answer simulatedUnseal) ++
    List.replicate 26 (false, simulatedScript.answer simulatedUnseal) ++
    List.replicate 22 (true, otherScript.answer simulatedUnseal)

theorem not_key_consistent_of_interleaved :
    ¬ ∀ (ι : Type) [DecidableEq ι] (sealed : SealedEnvelope → Option Bytes) (pr : Process)
      (user : String) (reqs : ι → Request) (peers : ι → Option Nat) (qs : ι → Proc Response)
      (w v : World) (log : Log host ι), Authentic pr.cl → KeysAgree sealed pr.cl user w →
      (∀ i, KeyRequest user (reqs i) ∨ reqs i = .deleteProfile user) →
      Interleaved (World.Step sealed .none) (fun i => dispatch pr (reqs i) (peers i)) w log qs v →
      (∀ i, ∃ resp, qs i = .ret resp) → KeyConsistent sealed pr.cl user v := by
  intro hall
  have hrun : ((schedule (World.step simulatedUnseal .none)
      (fun _ => dispatch simulatedProcess (.enroll "alice" false) (some 0)) emptyWorld
      racingEnrolls).map fun x => ((x.1 false).result?.isSome, (x.1 true).result?.isSome,
        (x.2.file (.user "alice" .templateKeyEnvelope) : Option (Json SealedEnvelope)),
        (x.2.file (.user "alice" .embeddingEnc) : Option Bytes).map fun blob =>
          (decrypt simulatedCrypto (List.replicate 32 7) blob).isOk)) =
      some (true, true, some (.value (simulatedSeal (List.replicate 32 7))), some false) := by
    decide +kernel
  obtain ⟨⟨qs, v⟩, hschedule, heq⟩ := Option.map_eq_some_iff.1 hrun
  simp only [Prod.mk.injEq] at heq
  obtain ⟨hfalse, htrue, hkeyFile, hblob⟩ := heq
  obtain ⟨blob, henc, hundecryptable⟩ := Option.map_eq_some_iff.1 hblob
  obtain ⟨log, hpool⟩ := Interleaved.schedule (fun _ _ _ _ _ => step_sound) (.nil _ _) hschedule
  have hdone : ∀ i, ∃ resp, qs i = .ret resp := by
    rintro (_ | _)
    · obtain ⟨resp, hresp⟩ := Option.isSome_iff_exists.1 hfalse
      exact ⟨resp, Program.eq_ret_of_result? hresp⟩
    · obtain ⟨resp, hresp⟩ := Option.isSome_iff_exists.1 htrue
      exact ⟨resp, Program.eq_ret_of_result? hresp⟩
  obtain ⟨key, ⟨env, henv, hsealed⟩, ⟨raw, hdec⟩, -⟩ := hall Bool _ _ "alice"
    (fun _ => .enroll "alice" false) (fun _ => some 0) _ _ _ _ authentic_simulatedCrypto
    (.of_none rfl (file_emptyWorld _) (file_emptyWorld _)) (fun _ => .inl (.enroll false)) hpool
    hdone blob henc
  rw [hkeyFile] at henv
  obtain rfl : simulatedSeal (List.replicate 32 7) = env := by simpa using henv
  obtain rfl := Option.some.inj hsealed
  have hopens : (decrypt simulatedCrypto (List.replicate 32 7) blob).isOk = true :=
    congrArg Except.isOk hdec
  rw [hundecryptable] at hopens
  cases hopens

end Linhello.Daemon
