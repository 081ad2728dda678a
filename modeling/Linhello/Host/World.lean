import Mathlib.Data.List.AList
import Linhello.Host.Operations
/-!
# The world the daemon runs in

A concrete reading of the host operations: the files under the config root and
the template-key cache, with whole-file writes. Everything the daemon cannot
influence (frames, device names, random bytes, the account database) may answer
anything of the right kind. `Faults` says which operations may fail for no
reason of their own.

The TPM is the oracle `sealed`: the secret inside an envelope's blobs, if this
TPM made them. `Tpm` models what is behind it.
-/

namespace Linhello.Host

open Common Linhello.Core Effect Liveness

abbrev UserDir := AList UserFile.Data

structure World where
  root : AList RootFile.Data
  users : AList fun _ : String => UserDir
  cache : AList fun _ : String => Bytes

namespace World

/-! ## Files -/

def file (w : World) : (p : Path) → Option p.Data
  | .root f => w.root.lookup f
  | .user u f => (w.users.lookup u).bind fun d => d.lookup f

/-- Whether the directory a path lies in exists. -/
def hasDir (w : World) : Option String → Bool
  | none => true
  | some u => (w.users.lookup u).isSome

def dir (w : World) (u : String) : UserDir := (w.users.lookup u).getD ∅

def set (w : World) : (p : Path) → p.Data → World
  | .root f, d => { w with root := w.root.insert f d }
  | .user u f, d => { w with users := w.users.insert u ((w.dir u).insert f d) }

def erase (w : World) : Path → World
  | .root f => { w with root := w.root.erase f }
  | .user u f => { w with users := w.users.insert u ((w.dir u).erase f) }

/-- `create_dir_all`; `CONFIG_ROOT` itself always exists. -/
def mkdir (w : World) : Option String → World
  | none => w
  | some u => { w with users := w.users.insert u (w.dir u) }

def rmdir (w : World) (u : String) : World := { w with users := w.users.erase u }

def templateSize (w : World) (u : String) : Bool → Option Nat
  | false => (w.file (.user u .embeddingEnc)).map List.length
  | true => (w.file (.user u .embeddingBin)).map List.length

theorem file_user (w : World) (u : String) (f : UserFile) :
    w.file (.user u f) = (w.dir u).lookup f := by
  cases h : w.users.lookup u <;> simp [file, dir, h]

@[simp] theorem file_set_self (w : World) (p : Path) (d : p.Data) :
    (w.set p d).file p = some d := by
  cases p with
  | root f => simp [file, set]
  | user u f => simp [file, set]

theorem file_set_of_ne (w : World) {p q : Path} (d : p.Data) (h : q ≠ p) :
    (w.set p d).file q = w.file q := by
  cases p with
  | root f =>
      cases q with
      | root g =>
          have hgf : g ≠ f := fun hgf => h (by rw [hgf])
          exact AList.lookup_insert_ne hgf
      | user v g => rfl
  | user u f =>
      cases q with
      | root g => rfl
      | user v g =>
          rcases eq_or_ne v u with rfl | hvu
          · have hgf : g ≠ f := fun hgf => h (by rw [hgf])
            have hdir : (w.set (.user v f) d).dir v = (w.dir v).insert f d := by simp [set, dir]
            rw [file_user, file_user, hdir, AList.lookup_insert_ne hgf]
          · simp [file, set, AList.lookup_insert_ne hvu]

@[simp] theorem file_erase_self (w : World) (p : Path) : (w.erase p).file p = none := by
  cases p with
  | root f => simp [file, erase]
  | user u f => simp [file, erase]

theorem file_erase_of_ne (w : World) {p q : Path} (h : q ≠ p) :
    (w.erase p).file q = w.file q := by
  cases p with
  | root f =>
      cases q with
      | root g =>
          have hgf : g ≠ f := fun hgf => h (by rw [hgf])
          exact AList.lookup_erase_ne hgf
      | user v g => rfl
  | user u f =>
      cases q with
      | root g => rfl
      | user v g =>
          rcases eq_or_ne v u with rfl | hvu
          · have hgf : g ≠ f := fun hgf => h (by rw [hgf])
            have hdir : (w.erase (.user v f)).dir v = (w.dir v).erase f := by simp [erase, dir]
            rw [file_user, file_user, hdir, AList.lookup_erase_ne hgf]
          · simp [file, erase, AList.lookup_insert_ne hvu]

@[simp] theorem file_mkdir (w : World) (u : Option String) (p : Path) :
    (w.mkdir u).file p = w.file p := by
  cases u with
  | none => rfl
  | some u =>
      cases p with
      | root f => rfl
      | user v g =>
          rcases eq_or_ne v u with rfl | hvu
          · have hdir : (w.mkdir (some v)).dir v = w.dir v := by simp [mkdir, dir]
            rw [file_user, file_user, hdir]
          · simp [file, mkdir, AList.lookup_insert_ne hvu]

@[simp] theorem file_rmdir_self (w : World) (u : String) (f : UserFile) :
    (w.rmdir u).file (.user u f) = none := by
  simp [file, rmdir]

theorem file_rmdir_of_ne (w : World) {u v : String} (f : UserFile) (h : v ≠ u) :
    (w.rmdir u).file (.user v f) = w.file (.user v f) := by
  simp [file, rmdir, AList.lookup_erase_ne h]

@[simp] theorem file_withCache (w : World) (c : AList fun _ : String => Bytes) (p : Path) :
    ({ w with cache := c } : World).file p = w.file p := by
  cases p <;> rfl

@[simp] theorem cache_set (w : World) (p : Path) (d : p.Data) : (w.set p d).cache = w.cache := by
  cases p <;> rfl

@[simp] theorem cache_erase (w : World) (p : Path) : (w.erase p).cache = w.cache := by
  cases p <;> rfl

@[simp] theorem cache_mkdir (w : World) (u : Option String) : (w.mkdir u).cache = w.cache := by
  cases u <;> rfl

/-! ### Directories -/

theorem hasDir_set {w : World} {p : Path} {d : p.Data} {u : Option String} :
    (w.set p d).hasDir u = true ↔ p.parent = u ∨ w.hasDir u = true := by
  cases u with
  | none => simp [hasDir]
  | some u =>
      cases p with
      | root f => simp [hasDir, set, Path.parent]
      | user v f =>
          by_cases huv : v = u
          · simp [hasDir, set, Path.parent, huv]
          · simp [hasDir, set, Path.parent, huv, AList.lookup_insert_ne (Ne.symm huv)]

theorem hasDir_erase {w : World} {p : Path} {u : Option String} :
    (w.erase p).hasDir u = true ↔ p.parent = u ∨ w.hasDir u = true := by
  cases u with
  | none => simp [hasDir]
  | some u =>
      cases p with
      | root f => simp [hasDir, erase, Path.parent]
      | user v f =>
          by_cases huv : v = u
          · simp [hasDir, erase, Path.parent, huv]
          · simp [hasDir, erase, Path.parent, huv, AList.lookup_insert_ne (Ne.symm huv)]

theorem hasDir_mkdir {w : World} {u v : Option String} :
    (w.mkdir v).hasDir u = true ↔ v = u ∨ w.hasDir u = true := by
  cases u with
  | none => simp [hasDir]
  | some u =>
      cases v with
      | none => simp [mkdir]
      | some v =>
          by_cases huv : v = u
          · simp [hasDir, mkdir, huv]
          · simp [hasDir, mkdir, huv, AList.lookup_insert_ne (Ne.symm huv)]

theorem hasDir_of_file {w : World} {u : String} {f : UserFile}
    (h : (w.file (.user u f)).isSome = true) : w.hasDir (some u) = true := by
  cases hdir : w.users.lookup u with
  | none =>
      rw [file, hdir] at h
      cases h
  | some d => simp [hasDir, hdir]

theorem file_of_not_hasDir {w : World} {u : String} (h : w.hasDir (some u) = false) (f : UserFile) :
    w.file (.user u f) = none := by
  by_contra hne
  have hdir := hasDir_of_file (Option.isSome_iff_ne_none.2 hne)
  rw [h] at hdir
  cases hdir

end World

/-! ## What an operation may answer -/

/-- Which operations may fail although nothing is in their way: looking a file up,
reading it, changing it, and the TPM. -/
structure Faults where
  stat : Bool
  access : Bool
  modify : Bool
  tpm : Bool

def Faults.none : Faults := ⟨false, false, false, false⟩

def Faults.any : Faults := ⟨true, true, true, true⟩

instance : (f : UserFile) → DecidableEq f.Data
  | .passwordEnvelope | .templateKeyEnvelope => inferInstanceAs (DecidableEq (Json SealedEnvelope))
  | .embeddingEnc | .embeddingBin => inferInstanceAs (DecidableEq Bytes)
  | .recoveryEnvelope => inferInstanceAs (DecidableEq (Json RecoveryEnvelope))
  | .cameraBinding => inferInstanceAs (DecidableEq (Json CameraBinding))
  | .irCalibration => inferInstanceAs (DecidableEq (Json IrCalibration))
  | .displayName => inferInstanceAs (DecidableEq (Option String))

instance : (f : RootFile) → DecidableEq f.Data
  | .tpmEnvelope => inferInstanceAs (DecidableEq (Json SealedEnvelope))
  | .policyConf => inferInstanceAs (DecidableEq (Option String))

instance : (p : Path) → DecidableEq p.Data
  | .root f => inferInstanceAs (DecidableEq f.Data)
  | .user _ f => inferInstanceAs (DecidableEq f.Data)

/-- An answer to an operation on something that is there (`present`) or not. -/
def ioAnswer {α : Type} (present : Bool) (fault : Bool) (ok : α → Bool) : Except IoError α → Bool
  | .ok a => present && ok a
  | .error .notFound => !present
  | .error (.other _) => fault

namespace World

/-- Whether `r` is a possible answer to an operation in the world `w`. -/
def allows (sealed : SealedEnvelope → Option Bytes) (flt : Faults) (w : World) :
    (o : Op) → o.Ans → Bool
  | .pathExists p, b => b == (w.file p).isSome || flt.stat && !b
  | .read p, r => ioAnswer (w.file p).isSome flt.access (fun d => w.file p = some d) r
  | .write p _, r => ioAnswer (w.hasDir p.parent) flt.modify (fun _ => true) r
  | .setPermissions p, r => ioAnswer (w.file p).isSome flt.modify (fun _ => true) r
  | .removeFile p, r => ioAnswer (w.file p).isSome flt.modify (fun _ => true) r
  | .createDirAll _, r => ioAnswer true flt.modify (fun _ => true) r
  | .readRoot, r => ioAnswer true flt.access (fun names => names.isPerm w.users.keys) r
  | .readUserDir u, r =>
      ioAnswer (w.users.lookup u).isSome flt.access (fun es => es.isPerm (w.dir u).keys) r
  -- a directory with entries in it is not removed
  | .removeDir u, r =>
      ioAnswer (w.users.lookup u).isSome (flt.modify || (w.dir u).keys ≠ [])
        (fun _ => (w.dir u).keys = []) r
  | .templateLen u legacy, r =>
      ioAnswer (w.templateSize u legacy).isSome flt.access
        (fun n => w.templateSize u legacy = some n) r
  | .cacheGet u, r => r = w.cache.lookup u
  | .tpmSeal s, .ok env => sealed env = some s
  | .tpmSeal _, .error _ => flt.tpm
  | .tpmUnseal env, .ok s => sealed env = some s
  | .tpmUnseal env, .error _ => flt.tpm || (sealed env).isNone
  | .randomBytes n, b => b.length = n
  | _, _ => true

/-- The world after an operation with its answer; a failed one changes nothing. -/
def next (w : World) : (o : Op) → o.Ans → World
  | .write p d, .ok () => w.set p d
  | .removeFile p, .ok () => w.erase p
  | .createDirAll u, .ok () => w.mkdir u
  | .removeDir u, .ok () => w.rmdir u
  | .cacheInsert u k, _ => { w with cache := w.cache.insert u k }
  | .cacheRemove u, _ => { w with cache := w.cache.erase u }
  | _, _ => w

/-- The semantics of the host operations over worlds. -/
def Step (sealed : SealedEnvelope → Option Bytes) (flt : Faults) : Semantics host World :=
  fun w o r w' => w.allows sealed flt o r = true ∧ w' = w.next o r

section Step

variable {sealed : SealedEnvelope → Option Bytes} {flt : Faults} {w w' : World}

theorem step_read_ok {p : Path} {d : p.Data} (h : Step sealed flt w (.read p) (.ok d) w') :
    w.file p = some d ∧ w' = w := by
  obtain ⟨hallows, rfl⟩ := h
  simp only [allows, ioAnswer, Bool.and_eq_true, decide_eq_true_eq] at hallows
  exact ⟨hallows.2, rfl⟩

theorem step_write_ok {p : Path} {d : p.Data} (h : Step sealed flt w (.write p d) (.ok ()) w') :
    w' = w.set p d := h.2

theorem step_unseal_ok {env : SealedEnvelope} {s : Bytes}
    (h : Step sealed flt w (.tpmUnseal env) (.ok s) w') : sealed env = some s ∧ w' = w := by
  obtain ⟨hallows, rfl⟩ := h
  simp only [allows, decide_eq_true_eq] at hallows
  exact ⟨hallows, rfl⟩

theorem step_setPermissions {p : Path} {r : Except IoError Unit}
    (h : Step sealed flt w (.setPermissions p) r w') : w' = w := h.2

theorem step_removeFile_of_ne {p q : Path} {r : Except IoError Unit}
    (h : Step sealed flt w (.removeFile p) r w') (hq : q ≠ p) : w'.file q = w.file q := by
  obtain ⟨-, rfl⟩ := h
  cases r with
  | ok u => exact file_erase_of_ne w hq
  | error e => rfl

end Step

/-- Operations that leave the world as it is. -/
def quiet : Op → Bool
  | .write _ _ | .removeFile _ | .createDirAll _ | .removeDir _ | .cacheInsert _ _
  | .cacheRemove _ => false
  | _ => true

theorem next_of_quiet {w : World} {o : Op} {r : o.Ans} (h : quiet o = true) : w.next o r = w := by
  cases o <;> first | rfl | cases h

theorem exec_quiet {sealed : SealedEnvelope → Option Bytes} {flt : Faults} {α : Type}
    {p : Proc α} (hp : p.Only fun o => quiet o = true) {w w' : World} {a : α}
    (h : Exec (Step sealed flt) p w a w') : w' = w := by
  refine (hp.exec (R := fun w w' => w' = w) (fun _ => rfl) (fun hvu hwv => hwv.trans hvu) ?_ h)
  rintro w o r v ho ⟨-, rfl⟩
  exact next_of_quiet ho

/-- The operations of a function that only looks around: at devices, at the
accounts, and at the files in `F`. -/
def looks (F : Path → Prop) : Op → Prop
  | .pathExists p | .read p => F p
  | .rgbDevice | .irDevice | .captureBurst _ _ | .captureIrFrom _ | .enumerateCameras
  | .canonicalize _ | .probeCamera _ | .readText _ | .readLink _ | .uidForName _ => True
  | _ => False

theorem quiet_of_looks {F : Path → Prop} {o : Op} (h : looks F o) : quiet o = true := by
  cases o <;> first | rfl | cases h

theorem looks_mono {F F' : Path → Prop} (hF : ∀ p, F p → F' p) {o : Op} (h : looks F o) :
    looks F' o := by
  cases o <;> first | exact hF _ h | exact h

def isCapture : Op → Bool
  | .captureBurst _ _ | .captureIrFrom _ => true
  | _ => false

def glances (F : Path → Prop) (o : Op) : Prop := looks F o ∧ isCapture o = false

theorem looks_of_glances {F : Path → Prop} {o : Op} (h : glances F o) : looks F o := h.1

/-- The events that may change the file at `p`. -/
def touches (p : Path) (e : Event host) : Prop :=
  match e with
  | ⟨.write q _, r⟩ => q = p ∧ r = Except.ok ()
  | ⟨.removeFile q, r⟩ => q = p ∧ r = Except.ok ()
  | ⟨.removeDir u, r⟩ => p.parent = some u ∧ r = Except.ok ()
  | _ => False

theorem hasDir_next {w : World} {u : Option String} {o : Op} {r : o.Ans}
    (ho : ∀ v, o ≠ .removeDir v) (h : w.hasDir u = true) : (w.next o r).hasDir u = true := by
  cases o with
  | write q d =>
      cases r with
      | error e => exact h
      | ok _ => exact hasDir_set.2 (.inr h)
  | removeFile q =>
      cases r with
      | error e => exact h
      | ok _ => exact hasDir_erase.2 (.inr h)
  | createDirAll v =>
      cases r with
      | error e => exact h
      | ok _ => exact hasDir_mkdir.2 (.inr h)
  | removeDir v => exact absurd rfl (ho v)
  | _ =>
      cases u with
      | none => rfl
      | some u => exact h

theorem file_next_of_not_touches {w : World} {p : Path} {o : Op} {r : o.Ans}
    (h : ¬ touches p ⟨o, r⟩) : (w.next o r).file p = w.file p := by
  cases o with
  | write q d =>
      cases r with
      | error e => rfl
      | ok u => exact file_set_of_ne w d fun hpq => h ⟨hpq.symm, rfl⟩
  | removeFile q =>
      cases r with
      | error e => rfl
      | ok u => exact file_erase_of_ne w fun hpq => h ⟨hpq.symm, rfl⟩
  | createDirAll u =>
      cases r with
      | error e => rfl
      | ok _ => exact file_mkdir w u p
  | removeDir u =>
      cases r with
      | error e => rfl
      | ok _ =>
          cases p with
          | root f => rfl
          | user v f => exact file_rmdir_of_ne w f fun hvu => h ⟨by rw [hvu]; rfl, rfl⟩
  | cacheInsert u k => exact file_withCache _ _ p
  | cacheRemove u => exact file_withCache _ _ p
  | _ => rfl

theorem file_of_untouched {sealed : SealedEnvelope → Option Bytes} {flt : Faults} {α : Type}
    {p : Path} {prog : Proc α} {x y : World × List (Event host)} {a : α}
    (h : Exec (recorded (Step sealed flt)) prog x a y) (hy : ∀ e ∈ y.2, ¬ touches p e) :
    y.1.file p = x.1.file p := by
  induction prog generalizing x with
  | ret b =>
      obtain ⟨-, rfl⟩ := h
      rfl
  | call o k ih =>
      obtain ⟨r, z, ⟨⟨-, hz⟩, hz2⟩, hrest⟩ := h
      have hmem : (⟨o, r⟩ : Event host) ∈ y.2 := by
        have hpre := prefix_of_exec_recorded hrest
        rw [hz2] at hpre
        exact hpre.subset (List.mem_append_right _ List.mem_cons_self)
      rw [ih r hrest, hz]
      exact file_next_of_not_touches (hy _ hmem)

/-- The operations that cannot change the file at `p`. -/
def spares (p : Path) : Op → Prop
  | .write q _ | .removeFile q => q ≠ p
  | .removeDir u => p.parent ≠ some u
  | _ => True

theorem not_touches_of_spares {p : Path} {o : Op} (h : spares p o) (r : o.Ans) :
    ¬ touches p ⟨o, r⟩ := by
  cases o <;> first | exact fun ht => h ht.1 | exact id

theorem file_of_spares {sealed : SealedEnvelope → Option Bytes} {flt : Faults} {α : Type}
    {p : Path} {prog : Proc α} (hp : prog.Only (spares p)) {w w' : World} {a : α}
    (h : Exec (Step sealed flt) prog w a w') : w'.file p = w.file p := by
  have htrans : ∀ {t u v : World}, u.file p = t.file p → v.file p = u.file p →
      v.file p = t.file p := fun htu huv => huv.trans htu
  refine hp.exec (R := fun w w' => w'.file p = w.file p) (fun _ => rfl) htrans ?_ h
  rintro w o r v ho ⟨-, rfl⟩
  exact file_next_of_not_touches (not_touches_of_spares ho r)

theorem spares_of_looks {F : Path → Prop} {p : Path} {o : Op} (h : looks F o) : spares p o := by
  cases o <;> trivial

/-- A program that looks at no file runs alike on every host. -/
theorem exec_of_looks_nowhere {sealed sealed' : SealedEnvelope → Option Bytes} {flt flt' : Faults}
    {α : Type} {p : Proc α} (hp : p.Only (looks fun _ => False)) {w w' : World} {a : α}
    (h : Exec (Step sealed flt) p w a w') (v : World) : Exec (Step sealed' flt') p v a v := by
  induction hp generalizing w with
  | ret b =>
      obtain ⟨rfl, -⟩ := h
      exact ⟨rfl, rfl⟩
  | @call o k here _ ih =>
      obtain ⟨r, u, ⟨hallows, -⟩, hrest⟩ := h
      have hsame : v.allows sealed' flt' o r = w.allows sealed flt o r := by
        cases o <;> first | rfl | exact here.elim
      exact ⟨r, v, ⟨hsame.trans hallows, (next_of_quiet (quiet_of_looks here)).symm⟩, ih r hrest⟩

/-- A chosen answer to every operation, checked against what the world allows. -/
abbrev Responder := World → (o : Op) → o.Ans

def step (sealed : SealedEnvelope → Option Bytes) (flt : Faults) (c : Responder) (w : World)
    (o : Op) : Option (o.Ans × World) :=
  if w.allows sealed flt o (c w o) then some (c w o, w.next o (c w o)) else none

theorem step_sound {sealed : SealedEnvelope → Option Bytes} {flt : Faults} {c : Responder}
    {w v : World} {o : Op} {r : o.Ans} (h : step sealed flt c w o = some (r, v)) :
    Step sealed flt w o r v := by
  simp only [step] at h
  split at h
  · rename_i hallows
    obtain ⟨rfl, rfl⟩ := Prod.mk.inj (Option.some.inj h)
    exact ⟨hallows, rfl⟩
  · cases h

end World

end Linhello.Host
