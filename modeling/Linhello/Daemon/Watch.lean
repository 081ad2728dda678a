import Linhello.Daemon.Handlers
import Linhello.Effect.Interleaving
import Linhello.Host.World
/-!
# Watching a pool

The daemon takes no lock across the files of a profile. What requests for one
user may do to each other is read off the log: which of them is in the middle of
deleting the profile, and what has happened since each of them last saw the
template key. `Orderly` is the rule under which they stay out of each other's way.
-/

namespace Linhello.Daemon

open Common Linhello.Core Effect Host Host.World

/-- How far a request is with deleting the profile. -/
inductive Phase
  | idle
  /-- It has listed the directory and is unlinking what it found. -/
  | removing
  /-- The directory is gone, the cached key not yet. -/
  | evicting
  deriving DecidableEq

def Opens (user : String) (e : Event host) : Prop :=
  match e with
  | ⟨.readUserDir u, r⟩ => u = user ∧ r.isOk = true
  | _ => False

/-- The event shows the request the state of the key. -/
def Contact (user : String) (e : Event host) : Prop :=
  match e with
  | ⟨.cacheGet u, _⟩ => u = user
  | ⟨.pathExists p, _⟩ => p = .user user .templateKeyEnvelope
  | ⟨.read p, _⟩ => p = .user user .templateKeyEnvelope ∨ p = .user user .recoveryEnvelope
  | ⟨.write p _, r⟩ => p = .user user .templateKeyEnvelope ∧ r = Except.ok ()
  | _ => False

/-- The request found that the user has no key. -/
def FoundNoKey (user : String) (e : Event host) : Prop :=
  match e with
  | ⟨.pathExists p, r⟩ => p = .user user .templateKeyEnvelope ∧ r = false
  | _ => False

def WritesKey (user : String) (e : Event host) : Prop :=
  match e with
  | ⟨.write p _, r⟩ => p = .user user .templateKeyEnvelope ∧ r = Except.ok ()
  | _ => False

/-- The phase after an event; any failure of `remove_dir_all` ends the deletion. -/
def Phase.next (user : String) (ph : Phase) (e : Event host) : Phase :=
  match e with
  | ⟨.readUserDir u, r⟩ => if u = user ∧ Except.isOk r = true then .removing else ph
  | ⟨.removeFile _, r⟩ =>
      match (r : Except IoError Unit) with
      | .error (.other _) => .idle
      | _ => ph
  | ⟨.removeDir _, r⟩ =>
      match (r : Except IoError Unit), ph with
      | .ok _, .removing => .evicting
      | _, _ => .idle
  | ⟨.cacheRemove _, _⟩ => .idle
  | _ => ph

theorem Phase.next_ne_idle {user : String} {ph : Phase} {e : Event host}
    (h : ph.next user e ≠ .idle) : ph ≠ .idle ∨ Opens user e := by
  by_contra hnot
  rw [not_or, not_not] at hnot
  obtain ⟨rfl, hopens⟩ := hnot
  apply h
  obtain ⟨o, r⟩ := e
  cases o with
  | readUserDir u => exact if_neg hopens
  | removeFile p =>
      rcases r with (_ | msg) | u <;> rfl
  | removeDir u =>
      rcases r with (_ | msg) | u <;> rfl
  | _ => rfl

variable {ι : Type} [DecidableEq ι]

/-- What the log says about each request. -/
structure Watch (ι : Type) where
  phase : ι → Phase
  /-- At its last contact it found no key. -/
  creating : ι → Prop
  /-- Since its last contact another request has been deleting the profile. -/
  overlapped : ι → Prop
  /-- It found no key, and another request has written one since. -/
  raced : ι → Prop

namespace Watch

def start : Watch ι := ⟨fun _ => .idle, fun _ => False, fun _ => False, fun _ => False⟩

/-- A request other than `i` is deleting the profile. -/
def Busy (s : Watch ι) (i : ι) : Prop := ∃ d, d ≠ i ∧ s.phase d ≠ .idle

def observe (user : String) (s : Watch ι) (i : ι) (e : Event host) : Watch ι where
  phase := Function.update s.phase i ((s.phase i).next user e)
  creating j :=
    if j = i then FoundNoKey user e ∨ ¬ Contact user e ∧ s.creating i else s.creating j
  overlapped j :=
    if j = i then Contact user e ∧ s.Busy i ∨ ¬ Contact user e ∧ s.overlapped i
    else s.overlapped j ∨ Opens user e
  raced j :=
    if j = i then ¬ Contact user e ∧ s.raced i
    else s.raced j ∨ s.creating j ∧ WritesKey user e

end Watch

def watch (user : String) (log : Log host ι) : Watch ι :=
  log.foldl (fun s e => s.observe user e.1 e.2) Watch.start

section Facts

variable {user : String} {log : Log host ι} {i j : ι} {e : Event host}

theorem watch_snoc : watch user (log ++ [(i, e)]) = (watch user log).observe user i e := by
  rw [watch, List.foldl_append]
  rfl

theorem phase_self : (watch user (log ++ [(i, e)])).phase i =
    ((watch user log).phase i).next user e := by
  rw [watch_snoc]
  exact Function.update_self ..

theorem phase_other (h : j ≠ i) :
    (watch user (log ++ [(i, e)])).phase j = (watch user log).phase j := by
  rw [watch_snoc]
  exact Function.update_of_ne h ..

theorem overlapped_self : (watch user (log ++ [(i, e)])).overlapped i ↔
    Contact user e ∧ (watch user log).Busy i ∨
      ¬ Contact user e ∧ (watch user log).overlapped i := by
  rw [watch_snoc]
  exact iff_of_eq (if_pos rfl)

theorem overlapped_other (h : j ≠ i) : (watch user (log ++ [(i, e)])).overlapped j ↔
    (watch user log).overlapped j ∨ Opens user e := by
  rw [watch_snoc]
  exact iff_of_eq (if_neg h)

theorem creating_self : (watch user (log ++ [(i, e)])).creating i ↔
    FoundNoKey user e ∨ ¬ Contact user e ∧ (watch user log).creating i := by
  rw [watch_snoc]
  exact iff_of_eq (if_pos rfl)

theorem creating_other (h : j ≠ i) :
    (watch user (log ++ [(i, e)])).creating j ↔ (watch user log).creating j := by
  rw [watch_snoc]
  exact iff_of_eq (if_neg h)

theorem raced_self : (watch user (log ++ [(i, e)])).raced i ↔
    ¬ Contact user e ∧ (watch user log).raced i := by
  rw [watch_snoc]
  exact iff_of_eq (if_pos rfl)

theorem raced_other (h : j ≠ i) : (watch user (log ++ [(i, e)])).raced j ↔
    (watch user log).raced j ∨ (watch user log).creating j ∧ WritesKey user e := by
  rw [watch_snoc]
  exact iff_of_eq (if_neg h)

/-- While a request deletes the profile, all others count as overlapped. -/
theorem overlapped_of_phase {d : ι} (hd : (watch user log).phase d ≠ .idle) (hj : j ≠ d) :
    (watch user log).overlapped j := by
  induction log using List.reverseRecOn generalizing d j with
  | nil => exact absurd rfl hd
  | append_singleton log x ih =>
      obtain ⟨i, e⟩ := x
      have hprev : (watch user log).phase d ≠ .idle ∨ (d = i ∧ Opens user e) := by
        by_cases hdi : d = i
        · subst hdi
          rw [phase_self] at hd
          exact (Phase.next_ne_idle hd).imp_right fun h => ⟨rfl, h⟩
        · rw [phase_other hdi] at hd
          exact .inl hd
      by_cases hji : j = i
      · subst hji
        have hbusy : (watch user log).phase d ≠ .idle := by
          rcases hprev with h | ⟨h, -⟩
          · exact h
          · exact absurd h.symm hj
        rw [overlapped_self]
        by_cases hcontact : Contact user e
        · exact .inl ⟨hcontact, d, hj.symm, hbusy⟩
        · exact .inr ⟨hcontact, ih hbusy hj⟩
      · rw [overlapped_other hji]
        rcases hprev with h | ⟨-, h⟩
        · exact .inl (ih h hj)
        · exact .inr h

theorem not_busy_of_not_overlapped (h : ¬ (watch user log).overlapped i) :
    ¬ (watch user log).Busy i := by
  rintro ⟨d, hd, hphase⟩
  exact h (overlapped_of_phase hphase hd.symm)

theorem overlapped_mono (hji : j ≠ i) (h : (watch user log).overlapped j) :
    (watch user (log ++ [(i, e)])).overlapped j :=
  (overlapped_other hji).2 (.inl h)

/-- A step that is no contact leaves its request overlapped or not. -/
theorem overlapped_self_of_not_contact (h : ¬ Contact user e) :
    (watch user (log ++ [(i, e)])).overlapped i ↔ (watch user log).overlapped i := by
  rw [overlapped_self]
  simp [h]

end Facts

/-! ## The rule -/

/-- Requests that stay out of each other's way: nothing is written into a profile
another request is deleting; the key is written only by a request that has seen it
undisturbed, or where there is none; and whatever is stored under a key is stored
by a request that has seen that key, with no deletion since. -/
def Orderly (user : String) : Rule host ι World := fun w log i e =>
  match e with
  | ⟨.write p _, r⟩ => r = Except.ok () → p.parent = some user →
      ¬ (watch user log).Busy i ∧
      (p = .user user .templateKeyEnvelope →
        ¬ (watch user log).overlapped i ∧ ¬ (watch user log).raced i ∨
          w.file (.user user .templateKeyEnvelope) = none) ∧
      (p = .user user .embeddingEnc ∨ p = .user user .recoveryEnvelope →
        ¬ (watch user log).overlapped i)
  | ⟨.createDirAll u, r⟩ => r = Except.ok () → u = some user → ¬ (watch user log).Busy i
  | ⟨.cacheInsert u _, _⟩ => u = user → ¬ (watch user log).overlapped i
  | _ => True

theorem orderly_alone {user : String} [Subsingleton ι] (w : World) (log : Log host ι) (i : ι)
    (e : Event host) : Orderly user w log i e := by
  have hbusy : ∀ s : Watch ι, ¬ s.Busy i := fun s ⟨d, hd, _⟩ => hd (Subsingleton.elim d i)
  have hquiet : ¬ (watch user log).overlapped i ∧ ¬ (watch user log).raced i := by
    induction log using List.reverseRecOn with
    | nil => exact ⟨not_false, not_false⟩
    | append_singleton log x ih =>
        obtain ⟨j, e⟩ := x
        obtain rfl := Subsingleton.elim i j
        rw [overlapped_self, raced_self]
        refine ⟨?_, fun h => ih.2 h.2⟩
        rintro (⟨-, h⟩ | ⟨-, h⟩)
        · exact hbusy _ h
        · exact ih.1 h
  obtain ⟨o, r⟩ := e
  cases o with
  | write p d => exact fun _ _ => ⟨hbusy _, fun _ => .inl hquiet, fun _ => hquiet.1⟩
  | createDirAll u => exact fun _ _ => hbusy _
  | cacheInsert u k => exact fun _ => hquiet.1
  | _ => trivial

end Linhello.Daemon
