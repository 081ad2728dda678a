import Linhello.Daemon.Footprint
import Linhello.Daemon.Runs
/-!
# Deleting a profile

What `DeleteProfile` leaves behind. `remove_dir_all` unlinks the files in the order
the directory lists them and stops at the first failure; the cached key goes only
after the directory has.
-/

namespace Linhello.Daemon

open Common Linhello.Core Effect Host Host.World

variable {user : String} {sealed : SealedEnvelope → Option Bytes} {flt : Faults}

/-- The operations before anything is removed. -/
def surveyOp : Op → Prop
  | .pathExists p => ∃ u, p = .user u .embeddingEnc ∨ p = .user u .embeddingBin
  | .readRoot | .templateLen _ _ => True
  | _ => False

def deleteOp (user : String) : Op → Prop
  | .readRoot | .pathExists _ | .templateLen _ _ => True
  | .readUserDir u | .removeDir u | .cacheRemove u => u = user
  | .removeFile p => p.parent = some user
  | _ => False

theorem deleteOp_of_surveyOp {o : Op} (h : surveyOp o) : deleteOp user o := by
  cases o <;> trivial

theorem survey_enrolledProfiles : enrolledProfiles.Only surveyOp := by
  refine only_bind (only_perform trivial) fun names => ?_
  cases names with
  | error e => exact .ret _
  | ok names =>
      refine only_bind (only_filterM (fun name => ?_) names) fun _ => .ret _
      refine only_bind (only_perform ⟨name, .inl rfl⟩) fun present => ?_
      split
      · exact .ret _
      · exact only_perform ⟨name, .inr rfl⟩

theorem survey_profileSampleCount : (profileSampleCount user).Only surveyOp := by
  refine only_bind (only_perform trivial) fun len => ?_
  cases len with
  | ok n => exact .ret _
  | error e =>
      refine only_bind (only_perform trivial) fun legacy => ?_
      cases legacy <;> exact .ret _

private theorem delete_removeEntries (entries : List UserFile) :
    (removeEntries user entries).run.Only (deleteOp user) := by
  induction entries with
  | nil => exact only_perform rfl
  | cons f rest ih => exact only_exceptT_bind (only_map (only_perform rfl)) fun _ => ih

private theorem delete_removeDirAll : (removeDirAll user).run.Only (deleteOp user) :=
  only_exceptT_bind (only_perform rfl) fun entries => delete_removeEntries entries

theorem delete_doDeleteProfile : (doDeleteProfile user).Only (deleteOp user) := by
  refine only_bind (survey_enrolledProfiles.imp fun _ => deleteOp_of_surveyOp) fun profiles => ?_
  split
  · exact .ret _
  · refine only_bind (survey_profileSampleCount.imp fun _ => deleteOp_of_surveyOp) fun n => ?_
    refine only_bind delete_removeDirAll fun r => ?_
    cases r with
    | error e => exact .ret _
    | ok u => exact only_bind (only_perform rfl) fun _ => .ret _

/-! ## What is gone -/

/-- The event unlinks the user's file `f`. -/
def unlinks (user : String) (f : UserFile) : Event host :=
  ⟨.removeFile (.user user f), Except.ok ()⟩

def removesDir (user : String) : Event host := ⟨.removeDir user, Except.ok ()⟩

/-- What a deletion has done so far can be seen on disk. -/
structure Removed (user : String) (x : World × List (Event host)) : Prop where
  files : ∀ f, unlinks user f ∈ x.2 → x.1.file (.user user f) = none
  dir : removesDir user ∈ x.2 → ∀ f, x.1.file (.user user f) = none

theorem removed_start (w : World) : Removed user (w, []) :=
  ⟨fun _ h => absurd h List.not_mem_nil, fun h => absurd h List.not_mem_nil⟩

theorem file_of_deleteOp {w w' : World} {o : Op} {r : o.Ans} (ho : deleteOp user o)
    (hS : Step sealed flt w o r w') {p : Path} (hnone : w.file p = none) : w'.file p = none := by
  obtain ⟨-, rfl⟩ := hS
  by_cases htouches : touches p ⟨o, r⟩
  · cases o with
    | write q d => exact ho.elim
    | removeFile q =>
        obtain ⟨rfl, rfl⟩ := htouches
        exact file_erase_self w q
    | removeDir u =>
        obtain ⟨hu, rfl⟩ := htouches
        cases p with
        | root f => cases hu
        | user v f =>
            obtain rfl := Option.some.inj hu
            exact file_rmdir_self w v f
    | _ => exact htouches.elim
  · rw [file_next_of_not_touches htouches, hnone]

theorem cache_of_deleteOp {w w' : World} {o : Op} {r : o.Ans} (ho : deleteOp user o)
    (hS : Step sealed flt w o r w') {k : Bytes} (hk : w'.cache.lookup user = some k) :
    w.cache.lookup user = some k := by
  obtain ⟨-, rfl⟩ := hS
  cases o with
  | removeFile q =>
      cases r with
      | error e => exact hk
      | ok u => rwa [World.next, cache_erase] at hk
  | removeDir u =>
      cases r with
      | error e => exact hk
      | ok _ => exact hk
  | cacheRemove u =>
      obtain rfl : u = user := ho
      rw [World.next, AList.lookup_erase] at hk
      cases hk
  | write q d => exact ho.elim
  | createDirAll u => exact ho.elim
  | cacheInsert u k => exact ho.elim
  | _ => exact hk

theorem Removed.step {x y : World × List (Event host)} {o : Op} {r : o.Ans} (ho : deleteOp user o)
    (hS : recorded (Step sealed flt) x o r y) (h : Removed user x) : Removed user y := by
  obtain ⟨hstep, hlog⟩ := hS
  have hkept : ∀ {f}, x.1.file (.user user f) = none → y.1.file (.user user f) = none :=
    file_of_deleteOp ho hstep
  constructor
  · intro f hf
    rw [hlog, List.mem_append, List.mem_singleton] at hf
    rcases hf with hf | hf
    · exact hkept (h.files f hf)
    · obtain ⟨rfl, hr⟩ := Sigma.mk.inj hf
      obtain rfl := eq_of_heq hr
      rw [hstep.2]
      exact file_erase_self x.1 (.user user f)
  · intro hdir f
    rw [hlog, List.mem_append, List.mem_singleton] at hdir
    rcases hdir with hdir | hdir
    · exact hkept (h.dir hdir f)
    · obtain ⟨rfl, hr⟩ := Sigma.mk.inj hdir
      obtain rfl := eq_of_heq hr
      rw [hstep.2]
      exact file_rmdir_self x.1 user f

section Runs

variable {α : Type} {p : Proc α} {x y : World × List (Event host)} {a : α}

theorem Removed.exec (hp : p.Only (deleteOp user)) (h : Exec (recorded (Step sealed flt)) p x a y)
    (hx : Removed user x) : Removed user y :=
  hp.exec (R := fun x y => Removed user x → Removed user y) (fun _ h => h)
    (fun huv hvw h => hvw (huv h)) (fun ho hS h => h.step ho hS) h hx

theorem file_of_deletion (hp : p.Only (deleteOp user))
    (h : Exec (recorded (Step sealed flt)) p x a y) {q : Path} (hnone : x.1.file q = none) :
    y.1.file q = none := by
  have htrans : ∀ {t u v : World × List (Event host)}, (t.1.file q = none → u.1.file q = none) →
      (u.1.file q = none → v.1.file q = none) → t.1.file q = none → v.1.file q = none :=
    fun htu huv ht => huv (htu ht)
  exact hp.exec (R := fun x y => x.1.file q = none → y.1.file q = none) (fun _ h => h) htrans
    (fun ho hS h => file_of_deleteOp ho hS.1 h) h hnone

theorem cache_of_deletion (hp : p.Only (deleteOp user))
    (h : Exec (recorded (Step sealed flt)) p x a y) {k : Bytes}
    (hk : y.1.cache.lookup user = some k) : x.1.cache.lookup user = some k := by
  have htrans : ∀ {t u v : World × List (Event host)},
      (u.1.cache.lookup user = some k → t.1.cache.lookup user = some k) →
      (v.1.cache.lookup user = some k → u.1.cache.lookup user = some k) →
      v.1.cache.lookup user = some k → t.1.cache.lookup user = some k :=
    fun htu huv hv => htu (huv hv)
  exact hp.exec (R := fun x y => y.1.cache.lookup user = some k → x.1.cache.lookup user = some k)
    (fun _ h => h) htrans (fun ho hS h => cache_of_deleteOp ho hS.1 h) h hk

/-- A file that was not unlinked is still there while the directory is. -/
theorem file_kept_of_deletion (hp : p.Only (deleteOp user)) {w w' : World}
    {events : List (Event host)}
    (h : Exec (recorded (Step sealed flt)) p (w, []) a (w', events)) {f : UserFile}
    (hfile : unlinks user f ∉ events) (hdir : removesDir user ∉ events) :
    w'.file (.user user f) = w.file (.user user f) := by
  refine file_of_untouched h fun e he htouches => ?_
  have hop : deleteOp user e.1 := by
    rcases hp.recorded h e he with he | he
    · exact absurd he List.not_mem_nil
    · exact he
  obtain ⟨o, r⟩ := e
  cases o with
  | write q d => exact hop.elim
  | removeFile q =>
      obtain ⟨rfl, rfl⟩ := htouches
      exact hfile he
  | removeDir u =>
      obtain ⟨hu, rfl⟩ := htouches
      obtain rfl := Option.some.inj hu
      exact hdir he
  | _ => exact htouches.elim

end Runs

/-! ## Eviction -/

/-- `remove_dir_all` fails only with the directory still there. -/
theorem removesDir_of_error {entries : List UserFile} {x y : World × List (Event host)}
    {e : IoError}
    (h : Exec (recorded (Step sealed flt)) (removeEntries user entries).run x (.error e) y)
    (hmem : removesDir user ∈ y.2) : removesDir user ∈ x.2 := by
  induction entries generalizing x with
  | nil =>
      obtain ⟨r, z, ⟨-, hlog⟩, rfl, rfl⟩ := h
      rw [hlog, List.mem_append, List.mem_singleton] at hmem
      rcases hmem with hmem | hmem
      · exact hmem
      · obtain ⟨-, hr⟩ := Sigma.mk.inj hmem
        cases eq_of_heq hr
  | cons f rest ih =>
      have hunlink : ∀ {r z}, Exec (recorded (Step sealed flt))
          (ignoreMissing <$> perform (.removeFile (.user user f))) x r z →
          removesDir user ∈ z.2 → removesDir user ∈ x.2 := by
        intro r z hexec hz
        obtain ⟨a, hstep, -⟩ := exec_map.1 hexec
        rw [exec_perform] at hstep
        rw [hstep.2, List.mem_append, List.mem_singleton] at hz
        rcases hz with hz | hz
        · exact hz
        · cases (Sigma.mk.inj hz).1
      rcases exec_exceptT_bind.1 h with ⟨_, z, hfirst, hrest⟩ | ⟨e', hfirst, -⟩
      · exact hunlink hfirst (ih hrest)
      · exact hunlink hfirst hmem

theorem evicted_of_removesDir {w w' : World} {events : List (Event host)} {resp : Response}
    (h : Exec (recorded (Step sealed flt)) (doDeleteProfile user) (w, []) resp (w', events))
    (hmem : removesDir user ∈ events) : w'.cache.lookup user = none := by
  have hquiet : ∀ {α : Type} {p : Proc α} {x y : World × List (Event host)} {a : α},
      p.Only surveyOp → Exec (recorded (Step sealed flt)) p x a y →
      removesDir user ∈ y.2 → removesDir user ∈ x.2 := by
    intro α p x y a hp hexec hy
    exact (hp.recorded hexec _ hy).resolve_right id
  unfold doDeleteProfile at h
  obtain ⟨profiles, x₁, hprofiles, h₁⟩ := exec_bind.1 h
  have hx₁ : removesDir user ∉ x₁.2 := fun hx =>
    List.not_mem_nil (hquiet survey_enrolledProfiles hprofiles hx)
  split at h₁
  · obtain ⟨-, rfl⟩ := h₁
    exact absurd hmem hx₁
  · obtain ⟨n, x₂, hcount, h₂⟩ := exec_bind.1 h₁
    have hx₂ : removesDir user ∉ x₂.2 := fun hx => hx₁ (hquiet survey_profileSampleCount hcount hx)
    obtain ⟨r, x₃, hremove, h₃⟩ := exec_bind.1 h₂
    cases r with
    | ok u =>
        obtain ⟨_, x₄, hevict, hret⟩ := exec_bind.1 h₃
        obtain ⟨-, rfl⟩ := hret
        rw [exec_perform] at hevict
        have hdrop : w' = { x₃.1 with cache := x₃.1.cache.erase user } := hevict.1.2
        rw [hdrop]
        exact AList.lookup_erase _ _
    | error e =>
        obtain ⟨-, rfl⟩ := h₃
        rcases exec_exceptT_bind.1 hremove with ⟨entries, z, hlist, hentries⟩ | ⟨e', hlist, -⟩
        · have hz := removesDir_of_error hentries hmem
          obtain ⟨-, hlog⟩ := exec_perform.1 hlist
          rw [hlog, List.mem_append, List.mem_singleton] at hz
          rcases hz with hz | hz
          · exact absurd hz hx₂
          · cases (Sigma.mk.inj hz).1
        · obtain ⟨-, hlog⟩ := exec_perform.1 hlist
          have hevents : events = x₂.2 ++ [⟨.readUserDir user, Except.error e'⟩] := hlog
          rw [hevents, List.mem_append, List.mem_singleton] at hmem
          rcases hmem with hz | hz
          · exact absurd hz hx₂
          · cases (Sigma.mk.inj hz).1

end Linhello.Daemon
