import Linhello.Daemon.Footprint
import Linhello.Daemon.KeyInvariant
import Linhello.Daemon.Watch
/-!
# Requests that keep the key

What every request of a pool promises to the others about the user's template
key, and the specification of each store function under that promise. `Sight` is
what a request knows of the key from its last contact with it; it stays true while
the others keep their promises.
-/

namespace Linhello.Daemon

open Common Linhello.Core Effect Host Host.World Liveness Biometrics

variable {ι : Type} [DecidableEq ι]

section Promise

variable (sealed : SealedEnvelope → Option Bytes) (cl : CryptoLib) (user : String)

/-- The copies of the key agree whenever nobody is deleting the profile, and a key
whose directory is gone is about to be evicted. -/
structure Sound (x : World × Log host ι) : Prop where
  agree : (∀ d, (watch user x.2).phase d = .idle) → KeysAgree sealed cl user x.1
  evicts : x.1.hasDir (some user) = false → (x.1.cache.lookup user).isSome = true →
    ∃ d, (watch user x.2).phase d = .evicting

/-- What thread `i` promises of each of its steps. -/
structure KeyPromise (i : ι) (x y : World × Log host ι) : Prop where
  event : ∃ e, y.2 = x.2 ++ [(i, e)] ∧
    (x.1.file (.user user .templateKeyEnvelope) = none →
      y.1.file (.user user .templateKeyEnvelope) ≠ none → WritesKey user e)
  sound : Sound sealed cl user x → Sound sealed cl user y
  keys : (∀ d, (watch user x.2).phase d = .idle) →
    ∀ k, EnvKey sealed user x.1 k → EnvKey sealed user y.1 k
  shrinks : (watch user x.2).Busy i →
    (∀ f, (y.1.file (.user user f)).isSome = true → (x.1.file (.user user f)).isSome = true) ∧
      (y.1.hasDir (some user) = true → x.1.hasDir (some user) = true)

/-- What a request knows of the key. -/
inductive Sight
  | nothing
  | key (k : Bytes)
  | absent

def Sight.ofKey? : Option Bytes → Sight
  | none => .nothing
  | some k => .key k

/-- The knowledge is right as long as nobody has disturbed it. -/
def Sight.Holds (i : ι) (x : World × Log host ι) : Sight → Prop
  | .nothing => True
  | .key k => ¬ (watch user x.2).overlapped i → EnvKey sealed user x.1 k
  | .absent => (watch user x.2).creating i ∧
      (¬ (watch user x.2).overlapped i → ¬ (watch user x.2).raced i →
        x.1.file (.user user .templateKeyEnvelope) = none)

/-- Thread `i` is not deleting the profile and knows `s`. -/
structure Sees (i : ι) (s : Sight) (x : World × Log host ι) : Prop where
  sound : Sound sealed cl user x
  idle : (watch user x.2).phase i = .idle
  holds : s.Holds sealed user i x

end Promise

variable {sealed : SealedEnvelope → Option Bytes} {cl : CryptoLib} {user : String} {i : ι}
  {x y : World × Log host ι} {s : Sight}

theorem Sees.forget (h : Sees sealed cl user i s x) : Sees sealed cl user i .nothing x :=
  ⟨h.sound, h.idle, trivial⟩

theorem all_idle {log : Log host ι} (hbusy : ¬ (watch user log).Busy i)
    (hidle : (watch user log).phase i = .idle) (d : ι) : (watch user log).phase d = .idle := by
  by_contra hd
  exact hbusy ⟨d, fun hdi => hd (hdi ▸ hidle), hd⟩

theorem Sees.agree (h : Sees sealed cl user i s x) (hbusy : ¬ (watch user x.2).Busy i) :
    KeysAgree sealed cl user x.1 :=
  h.sound.agree (all_idle hbusy h.idle)

/-- The others do not make a request's knowledge wrong without marking it. -/
theorem stable_sees : Stable (KeyPromise sealed cl user) i (Sees sealed cl user i s) := by
  rintro x y hx ⟨j, hji, hG⟩
  obtain ⟨e, hlog, happears⟩ := hG.event
  have hij : i ≠ j := hji.symm
  refine ⟨hG.sound hx.sound, ?_, ?_⟩
  · rw [hlog, phase_other hij]
    exact hx.idle
  · have hback : ¬ (watch user y.2).overlapped i → ¬ (watch user x.2).overlapped i := by
      intro hy hover
      rw [hlog] at hy
      exact hy (overlapped_mono hij hover)
    cases s with
    | nothing => trivial
    | key k =>
        intro hy
        have hover := hback hy
        exact hG.keys (all_idle (not_busy_of_not_overlapped hover) hx.idle) k (hx.holds hover)
    | absent =>
        obtain ⟨hcreating, habsent⟩ := hx.holds
        have hcreating' : (watch user y.2).creating i := by
          rw [hlog, creating_other hij]
          exact hcreating
        refine ⟨hcreating', fun hy hraced => ?_⟩
        rw [hlog, raced_other hij, not_or] at hraced
        by_contra hne
        exact hraced.2 ⟨hcreating, happears (habsent (hback hy) hraced.1) hne⟩

/-! ## Steps -/

section Step

variable {flt : Faults} {Allowed : Rule host ι World} {o : Op} {r : o.Ans}

/-- While another request deletes the profile, no orderly step adds to it. -/
theorem shrinks_of_orderly {w w' : World} {log : Log host ι} (hS : World.Step sealed flt w o r w')
    (horderly : Orderly user w log i ⟨o, r⟩) (hbusy : (watch user log).Busy i) :
    (∀ f, (w'.file (.user user f)).isSome = true → (w.file (.user user f)).isSome = true) ∧
      (w'.hasDir (some user) = true → w.hasDir (some user) = true) := by
  obtain ⟨hallows, rfl⟩ := hS
  cases o with
  | write p d =>
      cases r with
      | error e => exact ⟨fun _ h => h, fun h => h⟩
      | ok u =>
          have hp : p.parent ≠ some user := fun hp => (horderly rfl hp).1 hbusy
          constructor
          · intro f hf
            have hne : Path.user user f ≠ p := by
              rintro rfl
              exact hp rfl
            rwa [World.next, file_set_of_ne _ _ hne] at hf
          · intro hdir
            exact (hasDir_set.1 hdir).resolve_left hp
  | removeFile p =>
      cases r with
      | error e => exact ⟨fun _ h => h, fun h => h⟩
      | ok u =>
          constructor
          · intro f hf
            by_cases hne : Path.user user f = p
            · rw [World.next, ← hne, file_erase_self] at hf
              cases hf
            · rwa [World.next, file_erase_of_ne _ hne] at hf
          · intro hdir
            rcases hasDir_erase.1 hdir with hp | hdir
            · cases p with
              | root f => cases hp
              | user v f =>
                  obtain rfl := Option.some.inj hp
                  have hpresent : (w.file (.user v f)).isSome = true := by
                    simpa [allows, ioAnswer] using hallows
                  exact hasDir_of_file hpresent
            · exact hdir
  | createDirAll u =>
      cases r with
      | error e => exact ⟨fun _ h => h, fun h => h⟩
      | ok _ =>
          have hu : u ≠ some user := fun hu => horderly rfl hu hbusy
          constructor
          · intro f hf
            rwa [World.next, file_mkdir] at hf
          · intro hdir
            exact (hasDir_mkdir.1 hdir).resolve_left hu
  | removeDir u =>
      cases r with
      | error e => exact ⟨fun _ h => h, fun h => h⟩
      | ok _ =>
          constructor
          · intro f hf
            by_cases hu : user = u
            · rw [World.next, hu, file_rmdir_self] at hf
              cases hf
            · rwa [World.next, file_rmdir_of_ne _ _ hu] at hf
          · intro hdir
            by_cases hu : user = u
            · subst hu
              simp [World.next, hasDir, rmdir] at hdir
            · simpa [World.next, hasDir, rmdir, AList.lookup_erase_ne hu] using hdir
  | cacheInsert u k =>
      have hfile := file_withCache w (w.cache.insert u k)
      refine ⟨fun f hf => ?_, fun h => h⟩
      rwa [World.next, hfile] at hf
  | cacheRemove u =>
      have hfile := file_withCache w (w.cache.erase u)
      refine ⟨fun f hf => ?_, fun h => h⟩
      rwa [World.next, hfile] at hf
  | _ => exact ⟨fun _ h => h, fun h => h⟩

theorem writesKey_of_appears {w : World}
    (hnone : w.file (.user user .templateKeyEnvelope) = none)
    (hsome : (w.next o r).file (.user user .templateKeyEnvelope) ≠ none) :
    WritesKey user ⟨o, r⟩ := by
  by_contra hnot
  have hspared : (w.next o r).file (.user user .templateKeyEnvelope) = none := by
    by_cases htouches : touches (.user user .templateKeyEnvelope) ⟨o, r⟩
    · cases o with
      | write p d => exact absurd ⟨htouches.1, htouches.2⟩ hnot
      | removeFile p =>
          obtain ⟨rfl, rfl⟩ := htouches
          exact file_erase_self w (.user user .templateKeyEnvelope)
      | removeDir u =>
          obtain ⟨hu, rfl⟩ := htouches
          obtain rfl := Option.some.inj hu
          exact file_rmdir_self w user .templateKeyEnvelope
      | _ => exact htouches.elim
    · rw [file_next_of_not_touches htouches, hnone]
  exact hsome hspared

/-- The promise of a step that is no part of a deletion, from what it does to the
copies of the key. -/
theorem KeyPromise.of_idle (hrule : ∀ w log i e, Allowed w log i e → Orderly user w log i e)
    (hS : logged (World.Step sealed flt) Allowed i x o r y)
    (hidle : (watch user x.2).phase i = .idle)
    (hnext : Phase.next user .idle ⟨o, r⟩ = .idle) (hdir : ∀ v, o ≠ .removeDir v)
    (hagree : (∀ d, (watch user x.2).phase d = .idle) → KeysAgree sealed cl user x.1 →
      KeysAgree sealed cl user y.1)
    (hcache : y.1.hasDir (some user) = false → (y.1.cache.lookup user).isSome = true →
      (x.1.cache.lookup user).isSome = true)
    (hkeys : (∀ d, (watch user x.2).phase d = .idle) →
      ∀ k, EnvKey sealed user x.1 k → EnvKey sealed user y.1 k) :
    KeyPromise sealed cl user i x y ∧ (watch user y.2).phase i = .idle := by
  obtain ⟨hstep, hlog, hallowed⟩ := hS
  have hidle' : (watch user y.2).phase i = .idle := by rw [hlog, phase_self, hidle, hnext]
  have hother : ∀ d, d ≠ i → (watch user y.2).phase d = (watch user x.2).phase d := by
    intro d hd
    rw [hlog, phase_other hd]
  refine ⟨⟨⟨⟨o, r⟩, hlog, ?_⟩, ?_, hkeys, shrinks_of_orderly hstep (hrule _ _ _ _ hallowed)⟩,
    hidle'⟩
  · intro hnone hsome
    rw [hstep.2] at hsome
    exact writesKey_of_appears hnone hsome
  · intro hsound
    constructor
    · intro hall
      have hallx : ∀ d, (watch user x.2).phase d = .idle := by
        intro d
        by_cases hd : d = i
        · rw [hd, hidle]
        · rw [← hother d hd, hall d]
      exact hagree hallx (hsound.agree hallx)
    · intro hnodir hcached
      have hnodir' : x.1.hasDir (some user) = false := by
        by_contra h
        have hkept := hasDir_next (r := r) hdir (Bool.eq_true_of_not_eq_false h)
        rw [← hstep.2, hnodir] at hkept
        cases hkept
      obtain ⟨d, hd⟩ := hsound.evicts hnodir' (hcache hnodir hcached)
      have hdi : d ≠ i := by
        rintro rfl
        rw [hidle] at hd
        cases hd
      exact ⟨d, by rw [hother d hdi, hd]⟩

/-- A step that leaves the key envelope alone and is no contact with the key. -/
theorem kept_step (hrule : ∀ w log i e, Allowed w log i e → Orderly user w log i e)
    (hS : logged (World.Step sealed flt) Allowed i x o r y) (hx : Sees sealed cl user i s x)
    (hcontact : ¬ Contact user ⟨o, r⟩) (hnext : Phase.next user .idle ⟨o, r⟩ = .idle)
    (hdir : ∀ v, o ≠ .removeDir v)
    (hkey : y.1.file (.user user .templateKeyEnvelope) =
      x.1.file (.user user .templateKeyEnvelope))
    (hagree : (∀ d, (watch user x.2).phase d = .idle) → KeysAgree sealed cl user x.1 →
      KeysAgree sealed cl user y.1)
    (hcache : y.1.hasDir (some user) = false → (y.1.cache.lookup user).isSome = true →
      (x.1.cache.lookup user).isSome = true) :
    KeyPromise sealed cl user i x y ∧ Sees sealed cl user i s y := by
  obtain ⟨hpromise, hidle⟩ := KeyPromise.of_idle hrule hS hx.idle hnext hdir hagree hcache
    fun _ k hk => hk.congr hkey
  refine ⟨hpromise, hpromise.sound hx.sound, hidle, ?_⟩
  have hover : (watch user y.2).overlapped i ↔ (watch user x.2).overlapped i := by
    rw [hS.2.1, overlapped_self_of_not_contact hcontact]
  have hholds := hx.holds
  cases s with
  | nothing => trivial
  | key k => exact fun hy => (hholds fun h => hy (hover.2 h)).congr hkey
  | absent =>
      obtain ⟨hcreating, habsent⟩ := hholds
      refine ⟨?_, fun hy hraced => ?_⟩
      · rw [hS.2.1, creating_self]
        exact .inr ⟨hcontact, hcreating⟩
      · rw [hS.2.1, raced_self] at hraced
        rw [hkey]
        exact habsent (fun h => hy (hover.2 h)) fun h => hraced ⟨hcontact, h⟩

theorem look_step (hrule : ∀ w log i e, Allowed w log i e → Orderly user w log i e)
    (hS : logged (World.Step sealed flt) Allowed i x o r y) (hx : Sees sealed cl user i s x)
    (hsame : y.1 = x.1) (hnext : Phase.next user .idle ⟨o, r⟩ = .idle)
    (hdir : ∀ v, o ≠ .removeDir v) :
    KeyPromise sealed cl user i x y ∧ Sees sealed cl user i .nothing y := by
  obtain ⟨hpromise, hidle⟩ :=
    @KeyPromise.of_idle _ _ _ cl _ _ _ _ _ _ _ _ hrule hS hx.idle hnext hdir
    (fun _ h => by rwa [hsame]) (fun _ h => by rwa [hsame] at h) fun _ k hk => by rwa [hsame]
  exact ⟨hpromise, hpromise.sound hx.sound, hidle, trivial⟩

end Step

/-! ## Operations that do not concern the key -/

/-- Operations that neither show nor change any copy of the key. -/
def Benign (user : String) : Op → Prop
  | .pathExists p => p ≠ .user user .templateKeyEnvelope
  | .read p => p ≠ .user user .templateKeyEnvelope ∧ p ≠ .user user .recoveryEnvelope
  | .write p _ | .removeFile p =>
      p ≠ .user user .templateKeyEnvelope ∧ p ≠ .user user .recoveryEnvelope ∧
        p ≠ .user user .embeddingEnc
  | .readUserDir _ | .removeDir _ | .cacheGet _ | .cacheInsert _ _ | .cacheRemove _ => False
  | _ => True

theorem benign_of_looks {F : Path → Prop}
    (hkey : ¬ F (.user user .templateKeyEnvelope)) (hrec : ¬ F (.user user .recoveryEnvelope))
    {o : Op} (h : looks F o) : Benign user o := by
  cases o with
  | pathExists p =>
      rintro rfl
      exact hkey h
  | read p =>
      refine ⟨?_, ?_⟩ <;> rintro rfl
      · exact hkey h
      · exact hrec h
  | _ => trivial

section Specs

variable (sealed cl user) (flt : Faults) (Allowed : Rule host ι World) (i)

/-- From what it sees in `s` on, thread `i` runs `p` under its promise. -/
abbrev Runs {α : Type} (s : Sight) (p : Proc α) (Q : α → World × Log host ι → Prop) : Prop :=
  Promises (logged (World.Step sealed flt) Allowed) (KeyPromise sealed cl user) i
    (Sees sealed cl user i s) p Q

/-- `Runs` for a function that can fail; `e` is what an error leaves to know. -/
abbrev Tries {α ε : Type} (s : Sight) (x : ExceptT ε (Program host) α)
    (Q : α → World × Log host ι → Prop) (e : Sight) : Prop :=
  Attempts (logged (World.Step sealed flt) Allowed) (KeyPromise sealed cl user) i
    (Sees sealed cl user i s) x Q (Sees sealed cl user i e)

end Specs

section Functions

variable {flt : Faults} {Allowed : Rule host ι World} {α ε : Type}
  (hrule : ∀ w log i e, Allowed w log i e → Orderly user w log i e)

include hrule

theorem benign_step {o : Op} {r : o.Ans} (ho : Benign user o) (hx : Sees sealed cl user i s x)
    (hS : logged (World.Step sealed flt) Allowed i x o r y) :
    KeyPromise sealed cl user i x y ∧ Sees sealed cl user i s y := by
  have hspares : spares (.user user .templateKeyEnvelope) o ∧
      spares (.user user .embeddingEnc) o ∧ spares (.user user .recoveryEnvelope) o := by
    cases o with
    | write p d => exact ⟨ho.1, ho.2.2, ho.2.1⟩
    | removeFile p => exact ⟨ho.1, ho.2.2, ho.2.1⟩
    | removeDir u => exact ho.elim
    | _ => exact ⟨trivial, trivial, trivial⟩
  have hfile : ∀ p, spares p o → y.1.file p = x.1.file p := by
    intro p hp
    rw [hS.1.2]
    exact file_next_of_not_touches (not_touches_of_spares hp r)
  have hcache : y.1.cache = x.1.cache := by
    rw [hS.1.2]
    cases o with
    | write p d =>
        cases r with
        | error e => rfl
        | ok u => exact cache_set ..
    | removeFile p =>
        cases r with
        | error e => rfl
        | ok u => exact cache_erase ..
    | createDirAll u =>
        cases r with
        | error e => rfl
        | ok u => exact cache_mkdir ..
    | removeDir u => exact ho.elim
    | cacheInsert u k => exact ho.elim
    | cacheRemove u => exact ho.elim
    | _ => rfl
  have hcontact : ¬ Contact user ⟨o, r⟩ := by
    cases o with
    | pathExists p => exact ho
    | read p => exact fun h => h.elim ho.1 ho.2
    | write p d => exact fun h => ho.1 h.1
    | cacheGet u => exact ho.elim
    | _ => exact id
  have hnext : Phase.next user .idle ⟨o, r⟩ = .idle := by
    cases o with
    | removeFile p => rcases r with (_ | msg) | u <;> rfl
    | readUserDir u => exact ho.elim
    | removeDir u => exact ho.elim
    | _ => rfl
  have hdir : ∀ v, o ≠ .removeDir v := by
    rintro v rfl
    exact ho
  refine kept_step hrule hS hx hcontact hnext hdir (hfile _ hspares.1) (fun _ h => ?_)
    fun _ h => by rwa [hcache] at h
  refine h.mono (fun k hk => by rwa [hcache] at hk) (hfile _ hspares.1) (fun b hb => ?_)
    fun j hj => ?_
  · rwa [hfile _ hspares.2.1] at hb
  · rwa [hfile _ hspares.2.2] at hj

theorem runs_only {p : Proc α} (hp : p.Only (Benign user)) :
    Runs sealed cl user i flt Allowed s p fun _ => Sees sealed cl user i s :=
  Promises.only hp stable_sees fun _ _ _ _ ho hx hS => benign_step hrule ho hx hS

theorem tries_only {p : ExceptT ε (Program host) α} (hp : p.run.Only (Benign user)) :
    Tries sealed cl user i flt Allowed s p (fun _ => Sees sealed cl user i s) s := by
  refine (runs_only hrule hp).consequence (fun _ h => h) ?_
  rintro (e | a) y hy <;> exact hy

theorem runs_fact (o : Op) (ho : Benign user o) (φ : o.Ans → Prop)
    (hφ : ∀ {w r w'}, World.Step sealed flt w o r w' → φ r) :
    Runs sealed cl user i flt Allowed s (perform o) fun r x => φ r ∧ Sees sealed cl user i s x := by
  refine Promises.perform stable_sees (fun r => Stable.const.and stable_sees) ?_
  intro x r y hx hS
  obtain ⟨hpromise, hy⟩ := benign_step hrule ho hx hS
  exact ⟨hpromise, hφ hS.1, hy⟩

omit hrule in
theorem tries_displayed {f : LinuxHelloError → String} {p : Fallible α}
    {Q : α → World × Log host ι → Prop} {e : Sight}
    (hp : Tries sealed cl user i flt Allowed s p Q e) :
    Tries sealed cl user i flt Allowed s (displayed f p) Q e := by
  refine Promises.map (Promises.consequence hp (fun _ h => h) ?_)
  rintro (e | a) y hy <;> exact hy

end Functions

end Linhello.Daemon
