import Linhello.Daemon.Handlers
import Linhello.Daemon.KeyInvariant
/-!
# Resealing a user's envelopes

Under an ideal TPM and whole-file writes a reseal loses no secret, whatever step of it
fails: a file is replaced at once or not at all, and by what holds the same secret.
-/

namespace Linhello.Daemon

open Common Linhello.Core Effect Host Host.World

variable {sealed : SealedEnvelope → Option Bytes} {flt : Faults} {user : String} {secret : Bytes}
  {x y z : World × List (Event host)}

/-! ## One envelope -/

/-- Nothing but one envelope file may have changed, and that to an envelope of `secret`. -/
structure Replaces (sealed : SealedEnvelope → Option Bytes) (p : Path)
    (as : Json SealedEnvelope → p.Data) (secret : Bytes)
      (x y : World × List (Event host)) : Prop where
  file : y.1.file p = x.1.file p ∨
    ∃ env, sealed env = some secret ∧ y.1.file p = some (as (.value env))
  others : ∀ q, q ≠ p → y.1.file q = x.1.file q
  cache : y.1.cache = x.1.cache
  log : x.2 <+: y.2

/-- The secret was sealed and the file is what was written then. -/
def Resealed (sealed : SealedEnvelope → Option Bytes) (p : Path)
    (as : Json SealedEnvelope → p.Data) (secret : Bytes) (y : World × List (Event host)) : Prop :=
  ∃ env, sealed env = some secret ∧ ⟨.tpmSeal secret, .ok env⟩ ∈ y.2 ∧
    ⟨.write p (as (.value env)), .ok ()⟩ ∈ y.2 ∧ y.1.file p = some (as (.value env))

/-- The envelope in the file was unsealed to `secret`. -/
def Unsealed (p : Path) (as : Json SealedEnvelope → p.Data) (secret : Bytes)
    (w : World) (events : List (Event host)) : Prop :=
  ∃ env, w.file p = some (as (.value env)) ∧ ⟨.tpmUnseal env, .ok secret⟩ ∈ events

variable {p : Path} {as : Json SealedEnvelope → p.Data}

theorem Unsealed.mono {w : World} {events events' : List (Event host)}
    (h : Unsealed p as secret w events) (hlog : events <+: events') :
    Unsealed p as secret w events' := by
  obtain ⟨env, hfile, hevent⟩ := h
  exact ⟨env, hfile, hlog.subset hevent⟩

theorem Unsealed.congr {w w' : World} {events : List (Event host)}
    (h : Unsealed p as secret w events) (hfile : w'.file p = w.file p) :
    Unsealed p as secret w' events := by
  obtain ⟨env, henv, hevent⟩ := h
  exact ⟨env, hfile.trans henv, hevent⟩

theorem Replaces.same (hworld : y.1 = x.1) (hlog : x.2 <+: y.2) :
    Replaces sealed p as secret x y := by
  refine ⟨.inl ?_, ?_, ?_, hlog⟩
  · rw [hworld]
  · intro q _
    rw [hworld]
  · rw [hworld]

theorem Replaces.trans (hxy : Replaces sealed p as secret x y)
    (hyz : Replaces sealed p as secret y z) : Replaces sealed p as secret x z where
  file := by
    rcases hyz.file with hsame | hnew
    · rw [hsame]
      exact hxy.file
    · exact .inr hnew
  others := fun q hq => (hyz.others q hq).trans (hxy.others q hq)
  cache := hyz.cache.trans hxy.cache
  log := hxy.log.trans hyz.log

theorem exec_save {env : SealedEnvelope} {r : Except LinuxHelloError Unit}
    (hsealed : sealed env = some secret)
    (h : Exec (recorded (Step sealed flt)) (env.save p as).run x r y) :
    Replaces sealed p as secret x y ∧ (r = .ok () → y.1.file p = some (as (.value env)) ∧
      ⟨.write p (as (.value env)), .ok ()⟩ ∈ y.2) := by
  have hlog := prefix_of_exec_recorded h
  unfold SealedEnvelope.save at h
  -- making the directory changes no file
  have hmkdir : ∀ {v : World × List (Event host)} {answer : Except IoError Unit},
      recorded (Step sealed flt) x (.createDirAll p.parent) answer v →
      (∀ q, v.1.file q = x.1.file q) ∧ v.1.cache = x.1.cache := by
    intro v answer hstep
    obtain ⟨⟨-, hworld⟩, -⟩ := hstep
    rw [hworld]
    cases answer with
    | ok u => exact ⟨fun q => file_mkdir _ _ q, cache_mkdir _ _⟩
    | error e => exact ⟨fun q => rfl, rfl⟩
  rcases exec_exceptT_bind.1 h with ⟨u, v, hdir, hrest⟩ | ⟨e, hdir, rfl⟩
  · obtain ⟨answer, hdir, -⟩ := exec_io.1 hdir
    obtain ⟨hfiles, hcache⟩ := hmkdir (exec_perform.1 hdir)
    obtain ⟨answer', hwrite, rfl⟩ := exec_io.1 hrest
    obtain ⟨⟨-, hworld⟩, hevents⟩ := exec_perform.1 hwrite
    cases answer' with
    | ok u =>
        have hworld : y.1 = v.1.set p (as (.value env)) := hworld
        have hfile : y.1.file p = some (as (.value env)) := by rw [hworld, file_set_self]
        refine ⟨⟨.inr ⟨env, hsealed, hfile⟩, ?_, ?_, hlog⟩, fun _ => ⟨hfile, ?_⟩⟩
        · intro q hq
          rw [hworld, file_set_of_ne _ _ hq, hfiles]
        · rw [hworld, cache_set, hcache]
        · rw [hevents]
          exact List.mem_append_right _ List.mem_cons_self
    | error e =>
        have hworld : y.1 = v.1 := hworld
        refine ⟨⟨.inl ?_, ?_, ?_, hlog⟩, nofun⟩
        · rw [hworld, hfiles]
        · intro q _
          rw [hworld, hfiles]
        · rw [hworld, hcache]
  · obtain ⟨answer, hdir, -⟩ := exec_io.1 hdir
    obtain ⟨hfiles, hcache⟩ := hmkdir (exec_perform.1 hdir)
    exact ⟨⟨.inl (hfiles p), fun q _ => hfiles q, hcache, hlog⟩, nofun⟩

theorem exec_tpmSeal {r : Except LinuxHelloError SealedEnvelope}
    (h : Exec (recorded (Step sealed flt)) (fallible (perform (.tpmSeal secret))).run x r y) :
    y.1 = x.1 ∧ ∀ env, r = .ok env → sealed env = some secret ∧
      ⟨.tpmSeal secret, .ok env⟩ ∈ y.2 := by
  obtain ⟨⟨hallows, hworld⟩, hevents⟩ := exec_perform.1 (exec_fallible.1 h)
  refine ⟨hworld, ?_⟩
  intro env hr
  rw [hr] at hallows hevents
  simp only [allows, decide_eq_true_eq] at hallows
  refine ⟨hallows, ?_⟩
  rw [hevents]
  exact List.mem_append_right _ List.mem_cons_self

theorem exec_sealPassword {r : Except LinuxHelloError Unit}
    (h : Exec (recorded (Step sealed flt)) (sealPassword user secret).run x r y) :
    Replaces sealed (.user user .passwordEnvelope) id secret x y ∧
      (r = .ok () → Resealed sealed (.user user .passwordEnvelope) id secret y) := by
  have hlog := prefix_of_exec_recorded h
  unfold sealPassword at h
  by_cases hempty : secret = []
  · rw [if_pos hempty] at h
    obtain ⟨rfl, rfl⟩ := h
    exact ⟨.same rfl hlog, nofun⟩
  · rw [if_neg hempty] at h
    rcases exec_exceptT_bind.1 h with ⟨u, v, ⟨-, rfl⟩, hrest⟩ | ⟨e, ⟨-, rfl⟩, rfl⟩
    · rcases exec_exceptT_bind.1 hrest with ⟨env, v, hseal, hsave⟩ | ⟨e, hseal, rfl⟩
      · obtain ⟨hworld, henv⟩ := exec_tpmSeal hseal
        obtain ⟨hsealed, hevent⟩ := henv env rfl
        have hfirst : Replaces sealed (.user user .passwordEnvelope) id secret _ v :=
          .same hworld (prefix_of_exec_recorded hseal)
        rcases exec_exceptT_bind.1 hsave with ⟨u, t, hstored, hmode⟩ | ⟨e, hstored, rfl⟩
        · obtain ⟨hreplaces, hdone⟩ := exec_save hsealed hstored
          obtain ⟨hfile, hwrite⟩ := hdone rfl
          -- the mode is set last, and leaves the file
          obtain ⟨answer, hmode, -⟩ := exec_io.1 hmode
          have hquiet := prefix_of_exec_recorded hmode
          have hsame : y.1 = t.1 := step_setPermissions (exec_perform.1 hmode).1
          refine ⟨(hfirst.trans hreplaces).trans (.same hsame hquiet), fun _ => ?_⟩
          refine ⟨env, hsealed, hquiet.subset (hreplaces.log.subset hevent), hquiet.subset hwrite,
            ?_⟩
          rw [hsame]
          exact hfile
        · exact ⟨hfirst.trans (exec_save hsealed hstored).1, nofun⟩
      · exact ⟨.same (exec_tpmSeal hseal).1 (prefix_of_exec_recorded hseal), nofun⟩
    · exact ⟨.same rfl hlog, nofun⟩

/-! ## The request -/

theorem quiet_unsealPassword : (unsealPassword user).run.Only fun o => quiet o = true := by
  refine only_exceptT_bind only_orFail fun u => ?_
  refine only_exceptT_bind (only_readJson (by rfl)) fun env => ?_
  exact only_fallible (only_perform (by rfl))

theorem quiet_unsealTemplateKey : (unsealTemplateKey user).run.Only fun o => quiet o = true := by
  refine only_exceptT_bind only_orFail fun u => ?_
  refine only_exceptT_bind (only_readJson (by rfl)) fun env => ?_
  exact only_fallible (only_perform (by rfl))

/-- The user's password envelope unseals to `secret`. -/
def OpensPassword (sealed : SealedEnvelope → Option Bytes) (user : String) (w : World)
    (secret : Bytes) : Prop :=
  ∃ env, w.file (.user user .passwordEnvelope) = some (.value env) ∧ sealed env = some secret

theorem OpensPassword.unique {secret' : Bytes} {w : World} (h : OpensPassword sealed user w secret)
    (h' : OpensPassword sealed user w secret') : secret = secret' := by
  obtain ⟨env, hfile, hsealed⟩ := h
  obtain ⟨env', hfile', hsealed'⟩ := h'
  rw [hfile] at hfile'
  obtain rfl := Json.value.inj (Option.some.inj hfile')
  exact Option.some.inj (hsealed.symm.trans hsealed')

/-- What resealing one envelope does: the file keeps what it opens to, and an answer `true`
means that it was unsealed and replaced. -/
structure Keeps (sealed : SealedEnvelope → Option Bytes) (p : Path)
    (as : Json SealedEnvelope → p.Data) (Opens : World → Bytes → Prop)
    (x y : World × List (Event host))
    (done : Bool) : Prop where
  opens : ∀ secret, Opens x.1 secret → Opens y.1 secret
  others : ∀ q, q ≠ p → y.1.file q = x.1.file q
  log : x.2 <+: y.2
  done : done = true → ∃ secret, Unsealed p as secret x.1 y.2 ∧ Resealed sealed p as secret y

theorem exec_unsealFile {of : p.Data → Json SealedEnvelope}
    (h : Exec (recorded (Step sealed flt)) (do
      orFail (validateUser user)
      let env ← SealedEnvelope.load p of
      fallible (perform (.tpmUnseal env)) : Fallible Bytes).run x (.ok secret) y) :
    ∃ env, (x.1.file p).map of = some (.value env) ∧ sealed env = some secret ∧
      ⟨.tpmUnseal env, .ok secret⟩ ∈ y.2 := by
  simp only [exec_exceptT_bind_ok, exec_fallible, exec_perform] at h
  obtain ⟨_, v, ⟨-, rfl⟩, env, u, hload, hunseal⟩ := h
  obtain ⟨d, hread, hparse⟩ := exec_readJson_ok.1 hload
  obtain ⟨hfile, -⟩ := step_read_ok hread.1
  obtain ⟨hsealed, -⟩ := step_unseal_ok hunseal.1
  refine ⟨env, ?_, hsealed, ?_⟩
  · rw [hfile, Option.map_some, parse_eq_ok.1 hparse]
  · rw [hunseal.2]
    exact List.mem_append_right _ List.mem_cons_self

theorem keeps_resealPassword {done : Bool}
    (h : Exec (recorded (Step sealed flt)) (resealPassword user) x done y) :
    Keeps sealed (.user user .passwordEnvelope) id (OpensPassword sealed user) x y done ∧
      y.1.cache = x.1.cache := by
  unfold resealPassword at h
  obtain ⟨r, v, hunseal, hrest⟩ := exec_bind.1 h
  have hlog := prefix_of_exec_recorded hunseal
  have hsame := exec_quiet quiet_unsealPassword (exec_of_recorded hunseal)
  cases r with
  | error e =>
      obtain ⟨rfl, rfl⟩ := hrest
      refine ⟨⟨?_, ?_, hlog, nofun⟩, by rw [hsame]⟩
      · intro secret hopens
        rwa [hsame]
      · intro q _
        rw [hsame]
  | ok plaintext =>
      obtain ⟨env, hfile, hsealed, hevent⟩ := exec_unsealFile hunseal
      rw [Option.map_id_fun, id] at hfile
      have hplaintext : OpensPassword sealed user x.1 plaintext := ⟨env, hfile, hsealed⟩
      obtain ⟨r', t, hseal, hret⟩ := exec_bind.1 hrest
      obtain ⟨hreplaces, hdone⟩ := exec_sealPassword hseal
      have hend : y = t ∧ (done = true → r' = .ok ()) := by
        cases r' with
        | ok u => exact ⟨hret.2, fun _ => rfl⟩
        | error e =>
            obtain ⟨rfl, rfl⟩ := hret
            exact ⟨rfl, nofun⟩
      obtain ⟨rfl, hok⟩ := hend
      have hcache : y.1.cache = x.1.cache := by rw [hreplaces.cache, hsame]
      refine ⟨⟨?_, ?_, hlog.trans hreplaces.log, ?_⟩, hcache⟩
      · intro secret hopens
        obtain rfl := hplaintext.unique hopens
        rcases hreplaces.file with hkept | ⟨env', hsealed', hfile'⟩
        · refine ⟨env, ?_, hsealed⟩
          rw [hkept, hsame]
          exact hfile
        · exact ⟨env', hfile', hsealed'⟩
      · intro q hq
        rw [hreplaces.others q hq, hsame]
      · exact fun htrue => ⟨plaintext, ⟨env, hfile, hreplaces.log.subset hevent⟩, hdone (hok htrue)⟩

/-- What the reseal of the template key leaves in the cache. -/
def CacheKept (user : String) (x y : World × List (Event host)) (done : Bool) : Prop :=
  y.1.cache = x.1.cache ∨ done = true ∧ y.1.cache = x.1.cache.erase user

theorem Keeps.of_same {Opens : World → Bytes → Prop} (hworld : y.1 = x.1) (hlog : x.2 <+: y.2) :
    Keeps sealed p as Opens x y false := by
  refine ⟨?_, ?_, hlog, nofun⟩
  · intro secret hopens
    rwa [hworld]
  · intro q _
    rw [hworld]

theorem keeps_resealTemplateKey {done : Bool}
    (h : Exec (recorded (Step sealed flt)) (resealTemplateKey user) x done y) :
    Keeps sealed (.user user .templateKeyEnvelope) id (EnvKey sealed user) x y done ∧
      CacheKept user x y done := by
  unfold resealTemplateKey at h
  obtain ⟨r, v, hunseal, hrest⟩ := exec_bind.1 h
  have hlog := prefix_of_exec_recorded hunseal
  have hsame := exec_quiet quiet_unsealTemplateKey (exec_of_recorded hunseal)
  cases r with
  | error e =>
      obtain ⟨rfl, rfl⟩ := hrest
      exact ⟨.of_same hsame hlog, .inl (by rw [hsame])⟩
  | ok key =>
      obtain ⟨held, hheld, hopened, hunsealed⟩ := exec_unsealFile hunseal
      rw [Option.map_id_fun, id] at hheld
      have hkey : EnvKey sealed user x.1 key := ⟨held, hheld, hopened⟩
      obtain ⟨r', t, hseal, hsaved⟩ := exec_bind.1 hrest
      have hlog' := hlog.trans (prefix_of_exec_recorded hseal)
      obtain ⟨hworld, henv⟩ := exec_tpmSeal hseal
      have hsame' : t.1 = x.1 := hworld.trans hsame
      cases r' with
      | error e =>
          obtain ⟨rfl, rfl⟩ := hsaved
          exact ⟨.of_same hsame' hlog', .inl (by rw [hsame'])⟩
      | ok env =>
          obtain ⟨hsealed, hevent⟩ := henv env rfl
          cases hvalid : validateUser user with
          | error e =>
              rw [hvalid] at hsaved
              obtain ⟨rfl, rfl⟩ := hsaved
              exact ⟨.of_same hsame' hlog', .inl (by rw [hsame'])⟩
          | ok u =>
              rw [hvalid] at hsaved
              obtain ⟨r'', s, hsave, hend⟩ := exec_bind.1 hsaved
              obtain ⟨hreplaces, hdone⟩ := exec_save hsealed hsave
              have hopens : ∀ k, EnvKey sealed user x.1 k → EnvKey sealed user s.1 k := by
                intro k hk
                obtain rfl := hkey.unique hk
                rcases hreplaces.file with hkept | ⟨env', hsealed', hfile'⟩
                · exact hk.congr (by rw [hkept, hsame'])
                · exact ⟨env', hfile', hsealed'⟩
              have hothers : ∀ q, q ≠ .user user .templateKeyEnvelope →
                  s.1.file q = x.1.file q := by
                intro q hq
                rw [hreplaces.others q hq, hsame']
              cases r'' with
              | error e =>
                  obtain ⟨rfl, rfl⟩ := hend
                  refine ⟨⟨hopens, hothers, hlog'.trans hreplaces.log, nofun⟩, .inl ?_⟩
                  rw [hreplaces.cache, hsame']
              | ok u =>
                  obtain ⟨_, z, hremove, rfl, rfl⟩ := exec_bind.1 hend
                  obtain ⟨hfile, hwrite⟩ := hdone rfl
                  obtain ⟨⟨-, hcleared⟩, hevents⟩ := exec_perform.1 hremove
                  have hcleared : y.1 = { s.1 with cache := s.1.cache.erase user } := hcleared
                  have hfiles : ∀ q, y.1.file q = s.1.file q := by
                    intro q
                    rw [hcleared, file_withCache]
                  have hlast : s.2 <+: y.2 := prefix_of_exec_recorded hremove
                  refine ⟨⟨?_, ?_, (hlog'.trans hreplaces.log).trans hlast, fun _ => ?_⟩,
                    .inr ⟨rfl, ?_⟩⟩
                  · exact fun k hk => (hopens k hk).congr (hfiles _)
                  · exact fun q hq => (hfiles q).trans (hothers q hq)
                  · have hevents : v.2 <+: y.2 :=
                      ((prefix_of_exec_recorded hseal).trans hreplaces.log).trans hlast
                    exact ⟨key, ⟨held, hheld, hevents.subset hunsealed⟩, env, hsealed,
                      hlast.subset (hreplaces.log.subset hevent), hlast.subset hwrite,
                      (hfiles _).trans hfile⟩
                  · rw [hcleared]
                    change s.1.cache.erase user = _
                    rw [hreplaces.cache, hsame']

/-- What a reseal of both envelopes does, whichever of its steps fail. -/
structure ResealLaw (sealed : SealedEnvelope → Option Bytes) (user : String) (w w' : World)
    (events : List (Event host)) (r : Response) : Prop where
  password : ∀ secret, OpensPassword sealed user w secret → OpensPassword sealed user w' secret
  templateKey : ∀ key, EnvKey sealed user w key → EnvKey sealed user w' key
  flags : ∃ passwordDone keyDone, r = .userEnvelopesResealed passwordDone keyDone ∧
    (passwordDone = true → ∃ secret, Unsealed (.user user .passwordEnvelope) id secret w events ∧
      Resealed sealed (.user user .passwordEnvelope) id secret (w', events)) ∧
    (keyDone = true → ∃ key, Unsealed (.user user .templateKeyEnvelope) id key w events ∧
      Resealed sealed (.user user .templateKeyEnvelope) id key (w', events))
  cache : (∀ key, w.cache.lookup user = some key → EnvKey sealed user w key) →
    ∀ key, w'.cache.lookup user = some key → EnvKey sealed user w' key
  otherKeys : ∀ v, v ≠ user → w'.cache.lookup v = w.cache.lookup v
  otherFiles : ∀ p, p ≠ .user user .passwordEnvelope → p ≠ .user user .templateKeyEnvelope →
    w'.file p = w.file p

/-- Under an ideal TPM and whole-file writes, with any steps failing. -/
theorem reseal_user_envelopes_ideal {w w' : World} {events : List (Event host)} {r : Response}
    (h : Exec (recorded (Step sealed flt)) (doResealUserEnvelopes user) (w, []) r (w', events)) :
    ResealLaw sealed user w w' events r := by
  unfold doResealUserEnvelopes at h
  obtain ⟨passwordDone, v, hpassword, hrest⟩ := exec_bind.1 h
  obtain ⟨keyDone, u, hkey, rfl, rfl⟩ := exec_bind.1 hrest
  obtain ⟨hfirst, hcache⟩ := keeps_resealPassword hpassword
  obtain ⟨hsecond, hcleared⟩ := keeps_resealTemplateKey hkey
  have hne : Path.user user .passwordEnvelope ≠ .user user .templateKeyEnvelope := by simp
  have hkeyFile : v.1.file (.user user .templateKeyEnvelope) =
      w.file (.user user .templateKeyEnvelope) := hfirst.others _ hne.symm
  have htemplateKey : ∀ key, EnvKey sealed user w key → EnvKey sealed user w' key :=
    fun key hopens => hsecond.opens key (hopens.congr hkeyFile)
  have hpasswordFile : w'.file (.user user .passwordEnvelope) =
      v.1.file (.user user .passwordEnvelope) := hsecond.others _ hne
  refine ⟨?_, htemplateKey, ⟨passwordDone, keyDone, rfl, ?_, ?_⟩, ?_, ?_, ?_⟩
  · intro secret hopens
    obtain ⟨env, hfile, hsealed⟩ := hfirst.opens secret hopens
    exact ⟨env, hpasswordFile.trans hfile, hsealed⟩
  · intro hdone
    obtain ⟨secret, hunsealed, env, hsealed, hseal, hwrite, hfile⟩ := hfirst.done hdone
    exact ⟨secret, hunsealed.mono hsecond.log, env, hsealed, hsecond.log.subset hseal,
      hsecond.log.subset hwrite, hpasswordFile.trans hfile⟩
  · intro hdone
    obtain ⟨key, hunsealed, hresealed⟩ := hsecond.done hdone
    exact ⟨key, hunsealed.congr hkeyFile.symm, hresealed⟩
  · intro hcached key hlookup
    rcases hcleared with hsame | ⟨-, herased⟩
    · have hbefore : w'.cache = w.cache := hsame.trans hcache
      rw [hbefore] at hlookup
      exact htemplateKey key (hcached key hlookup)
    · have hnone : w'.cache.lookup user = none := by
        rw [show w'.cache = v.1.cache.erase user from herased, AList.lookup_erase]
      rw [hnone] at hlookup
      cases hlookup
  · intro other hother
    rcases hcleared with hsame | ⟨-, herased⟩
    · rw [show w'.cache = w.cache from hsame.trans hcache]
    · rw [show w'.cache = v.1.cache.erase user from herased, AList.lookup_erase_ne hother]
      rw [show v.1.cache = w.cache from hcache]
  · intro path hnotPassword hnotKey
    exact (hsecond.others path hnotKey).trans (hfirst.others path hnotPassword)

end Linhello.Daemon
