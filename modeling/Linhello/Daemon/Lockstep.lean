import Linhello.Daemon.Passwords
import Linhello.Effect.Server
/-!
# The sealed password over a run of the daemon

The daemon as a server: requests in service, their operations in any order, restarts. Once it
has answered that a user's password is sealed, that password is the one it releases, until it
is asked to seal another (`released_of_steady`).
-/

namespace Linhello.Daemon

open Common Linhello.Core Effect Host Host.World

variable {sealed : SealedEnvelope → Option Bytes} {flt : Faults} {pr : Process} {user : String}
  {peerUid : Option Nat} {password : Bytes} {w v : World} {req : Request} {resp : Response}

/-- What the daemon runs for a request: its own process and the sender's account do not
come with it. -/
def Serves (req : Request) (p : Proc Response) : Prop := ∃ pr peerUid, p = dispatch pr req peerUid

def Restarts (w v : World) : Prop := v = { w with cache := ∅ }

abbrev Linhellod := Server Serves World

def SamePassword (user : String) (password : Bytes) (req : Request) : Prop :=
  ∀ other, req = .sealPassword user other → other = password

/-- A request that does not rewrite the user's password envelope. -/
def Unrelated (user : String) (req : Request) : Prop :=
  (∀ other, req ≠ .sealPassword user other) ∧ req ≠ .resealUserEnvelopes user

def isPassword (user : String) (password : Bytes) : String → Bytes → Prop :=
  fun u secret => u = user → secret = password

/-! ## Requests that leave the envelope alone -/

def sparesPassword (user : String) (o : Op) : Prop :=
  ∀ d, o ≠ .write (.user user .passwordEnvelope) d

private theorem sparesPassword_of_userOp {other : String} {F : UserFile → Prop} {o : Op}
    (hne : other ≠ user) (h : userOp other F o) : sparesPassword user o := by
  rintro d rfl
  obtain ⟨f, hpath, -⟩ := h
  exact hne (Path.user.inj hpath).1.symm

theorem sparesPassword_dispatch (h : Unrelated user req) :
    (dispatch pr req peerUid).Only (sparesPassword user) := by
  obtain ⟨hseal, hreseal⟩ := h
  have hother : ∀ {other : String} {p : Proc Response}, other ≠ user →
      p.Only (userOp other anyFile) → p.Only (sparesPassword user) :=
    fun hne honly => honly.imp fun _ => sparesPassword_of_userOp hne
  by_cases hsealing : ∃ u other, req = .sealPassword u other
  · obtain ⟨u, other, rfl⟩ := hsealing
    have hne : u ≠ user := by
      rintro rfl
      exact hseal other rfl
    exact only_rootOnly (hother hne (userOp_doSealPassword trivial other))
  · by_cases hresealing : ∃ u, req = .resealUserEnvelopes u
    · obtain ⟨u, rfl⟩ := hresealing
      have hne : u ≠ user := by
        rintro rfl
        exact hreseal rfl
      exact only_rootOnly (hother hne (userOp_doResealUserEnvelopes trivial trivial))
    · have honly : (dispatch pr req peerUid).Only noPassword :=
        noPassword_dispatch (fun u other heq => hsealing ⟨u, other, heq⟩)
          fun u heq => hresealing ⟨u, heq⟩
      exact honly.imp fun _ hno d => hno user d

/-! ## The request that seals -/

/-- The password envelope is as before, or gone. -/
def PasswordKept (user : String) (w v : World) : Prop :=
  v.file (.user user .passwordEnvelope) = w.file (.user user .passwordEnvelope) ∨
    v.file (.user user .passwordEnvelope) = none

theorem passwordKept_step {o : Op} {r : o.Ans} (ho : sparesPassword user o)
    (hstep : Step sealed flt w o r v) : PasswordKept user w v := by
  by_cases htouch : touches (.user user .passwordEnvelope) ⟨o, r⟩
  · obtain ⟨-, rfl⟩ := hstep
    refine .inr ?_
    cases o with
    | write p d =>
        obtain ⟨rfl, -⟩ := htouch
        exact absurd rfl (ho d)
    | removeFile p =>
        obtain ⟨rfl, hr⟩ := htouch
        subst hr
        rw [World.next, file_erase_self]
    | removeDir u =>
        obtain ⟨hp, hr⟩ := htouch
        subst hr
        obtain rfl : user = u := Option.some.inj hp
        rw [World.next, file_rmdir_self]
    | _ => exact htouch.elim
  · refine .inl ?_
    rw [hstep.2, file_next_of_not_touches htouch]

/-- The user's password envelope opens to the password, if it is there and opens. -/
abbrev HoldsPassword (sealed : SealedEnvelope → Option Bytes) (user : String) (password : Bytes)
    (w : World) : Prop :=
  PasswordsAre sealed (isPassword user password) w

theorem HoldsPassword.kept (h : HoldsPassword sealed user password w)
    (hkept : PasswordKept user w v) : HoldsPassword sealed user password v := by
  intro u env secret hfile hsealed hu
  subst hu
  rcases hkept with hsame | hgone
  · rw [hsame] at hfile
    exact h u env secret hfile hsealed rfl
  · rw [hgone] at hfile
    cases hfile

theorem stable_holdsPassword : Stable (Server.Bounds (PasswordKept user)) true
    (HoldsPassword sealed user password) := by
  rintro w v h ⟨served, hother, hbound⟩
  rcases hbound with hserved | hkept
  · exact absurd hserved hother
  · exact h.kept hkept

/-- Whatever unrelated requests do meanwhile, a password that was sealed is in the envelope. -/
theorem promises_sealPassword : Promises (fun _ : Bool => Step sealed flt)
    (Server.Bounds (PasswordKept user)) true (fun _ => True) (sealPassword user password).run
    fun r w => r = .ok () → HoldsPassword sealed user password w := by
  have hstable : Stable (Server.Bounds (PasswordKept user)) true fun _ : World => True :=
    Stable.const
  have hself : ∀ {u v : World}, Server.Bounds (PasswordKept user) true u v := .inl rfl
  have hattempts : Attempts (fun _ : Bool => Step sealed flt) (Server.Bounds (PasswordKept user))
      true (fun _ => True) (sealPassword user password)
      (fun _ => HoldsPassword sealed user password) fun _ => True := by
    unfold sealPassword
    split
    · exact Attempts.throw hstable fun _ h => h
    · refine Attempts.bind (Q := fun _ _ => True) (Promises.ret hstable ?_) hstable fun _ => ?_
      · intro w _
        cases validateUser user <;> trivial
      refine Attempts.bind (Q := fun env _ => sealed env = some password) ?_ hstable fun env => ?_
      · refine Promises.perform hstable (fun r => ?_) fun w r v _ hstep => ⟨hself, ?_⟩
        · cases r with
          | ok env => exact Stable.const
          | error e => exact hstable
        · cases r with
          | ok env =>
              have hallows := hstep.1
              rwa [allows, decide_eq_true_eq] at hallows
          | error e => trivial
      refine Attempts.bind (Q := fun _ => HoldsPassword sealed user password) ?_ hstable fun _ => ?_
      · refine Attempts.bind (Q := fun _ _ => sealed env = some password) ?_ hstable fun _ => ?_
        · refine Attempts.attempt (Promises.perform Stable.const (fun r => ?_)
            fun w r v hsealed _ => ⟨hself, ?_⟩)
          · cases r with
            | ok u => exact Stable.const
            | error e => exact hstable
          · cases r with
            | ok u => exact hsealed
            | error e => trivial
        · -- the write itself
          refine Attempts.attempt (Promises.perform Stable.const (fun r => ?_)
            fun w r v hsealed hstep => ⟨hself, ?_⟩)
          · cases r with
            | ok u => exact stable_holdsPassword
            | error e => exact hstable
          · cases r with
            | error e => trivial
            | ok u =>
                intro u' env' secret hfile hsecret hu
                subst hu
                rw [step_write_ok hstep, file_set_self] at hfile
                obtain rfl := Json.value.inj (Option.some.inj hfile)
                exact Option.some.inj (hsecret.symm.trans hsealed)
      · refine Attempts.attempt (Promises.perform stable_holdsPassword (fun r => ?_)
          fun w r v hholds hstep => ⟨hself, ?_⟩)
        · cases r with
          | ok u => exact stable_holdsPassword
          | error e => exact hstable
        · cases r with
          | ok u => exact hholds.kept (.inl (by rw [step_setPermissions hstep]))
          | error e => trivial
  refine Promises.consequence hattempts (fun _ h => h) fun r w hr heq => ?_
  subst heq
  exact hr

/-- A password the daemon says it has sealed is in the envelope. -/
theorem guarded_sealing {p : Proc Response} (hserves : Serves (.sealPassword user password) p) :
    Guarded (fun _ : Bool => Step sealed flt) (Server.Bounds (PasswordKept user)) true
      (fun resp w => resp = .passwordSealed → HoldsPassword sealed user password w) p w := by
  obtain ⟨pr, peerUid, rfl⟩ := hserves
  have hrefused : ∀ {resp : Response}, resp ≠ .passwordSealed →
      Guarded (fun _ : Bool => Step sealed flt) (Server.Bounds (PasswordKept user)) true
        (fun resp w => resp = .passwordSealed → HoldsPassword sealed user password w)
        (.ret resp) w := fun hne v _ heq => absurd heq hne
  simp only [dispatch, rootOnly, withUser]
  split
  · apply hrefused
    intro heq
    cases heq
  · split
    · apply hrefused
      intro heq
      cases heq
    · refine Promises.bind promises_sealPassword (fun r => ?_) trivial
      have hstable : Stable (Server.Bounds (PasswordKept user)) true fun w =>
          r = .ok () → HoldsPassword sealed user password w :=
        fun x y h hrely heq => stable_holdsPassword (h heq) hrely
      refine Promises.ret hstable fun v h heq => ?_
      cases r with
      | ok u => exact h rfl
      | error e => cases heq

/-! ## Runs -/

theorem keeps_samePassword : Server.Keeps (Step sealed flt) Restarts Serves
    (SamePassword user password) (Vouched sealed (isPassword user password))
    (storesGood sealed (isPassword user password)) (HoldsPassword sealed user password) where
  operate := vouched_step
  accept := by
    rintro req p hsame ⟨pr, peerUid, rfl⟩
    refine guided_passwords fun u other heq _ hu => ?_
    subst hu
    exact hsame other heq
  restart := by
    rintro w v h rfl
    intro u env secret hfile
    rw [file_withCache] at hfile
    exact h u env secret hfile

theorem keeps_unrelated {Inv : World → Prop}
    (hkept : ∀ {w v}, Inv w → PasswordKept user w v → Inv v) :
    Server.Keeps (Step sealed flt) Restarts Serves (Unrelated user) (fun _ => True)
      (sparesPassword user) Inv where
  operate := fun hw ho hstep => ⟨trivial, hkept hw (passwordKept_step ho hstep)⟩
  accept := by
    rintro req p hunrelated ⟨pr, peerUid, rfl⟩
    exact (sparesPassword_dispatch hunrelated).guided
  restart := by
    rintro w v hw rfl
    exact hkept hw (.inl (file_withCache _ _ _))

/-- Nothing in service rewrites the user's password envelope. -/
def Calm (user : String) (d : Linhellod) : Prop :=
  ∀ id job, d.jobs id = some job → Unrelated user job.request

variable {d d' : Linhellod}

/-- The password is in the envelope, and what is still to be done keeps it there. -/
abbrev InStep (sealed : SealedEnvelope → Option Bytes) (user : String) (password : Bytes)
    (d : Linhellod) : Prop :=
  d.Steady (Vouched sealed (isPassword user password))
    (storesGood sealed (isPassword user password))
    (HoldsPassword sealed user password)

theorem Calm.steady (h : Calm user d) :
    d.Steady (fun _ => True) (sparesPassword user) fun _ => True where
  world := trivial
  jobs := by
    intro id job hjob
    obtain ⟨p, ⟨pr, peerUid, rfl⟩, hleads⟩ := job.remains
    exact (hleads.only (sparesPassword_dispatch (h id job hjob))).guided

private theorem inStep_of_unrelated (h : d.Steady (fun _ => True) (sparesPassword user)
    (HoldsPassword sealed user password)) : InStep sealed user password d where
  world := h.world
  jobs := by
    intro id job hjob
    refine ((h.jobs id job hjob).only.imp fun o ho => ?_).guided
    intro u env secret heq _ hu
    subst hu
    exact absurd heq (ho _)

/-- An answer that the password is sealed is true, whatever unrelated requests are served
before, meanwhile and after. -/
theorem inStep_of_sealed {x y z : Linhellod}
    (hx : x.Steady (fun _ => True) (sparesPassword user) fun _ => True)
    (hasks : Server.Asks (Step sealed flt) Restarts (Unrelated user) x (.sealPassword user password)
      .passwordSealed y)
    (hafter : Server.Steps (Step sealed flt) Restarts (Unrelated user) y z) :
    InStep sealed user password z := by
  obtain ⟨hholds, hjobs⟩ := hasks.guarded (R := PasswordKept user) (P := sparesPassword user)
    passwordKept_step (fun id job hjob => (hx.jobs id job hjob).only)
    (fun hunrelated ⟨_, _, heq⟩ => heq ▸ sparesPassword_dispatch hunrelated)
    fun p hserves => guarded_sealing hserves
  have hy : y.Steady (fun _ => True) (sparesPassword user) (HoldsPassword sealed user password) :=
    ⟨hholds rfl, fun id job hjob => (hjobs id job hjob).guided⟩
  exact inStep_of_unrelated (hy.steps (keeps_unrelated HoldsPassword.kept) hafter)

theorem InStep.released (h : InStep sealed user password d)
    (hreq : SamePassword user password req) (huser : req.user? = some user)
    (hasks : Server.Asks (Step sealed flt) Restarts (SamePassword user password) d req resp d') :
    InStep sealed user password d' ∧
      ∀ secret, resp = .passwordUnsealed secret → secret = password := by
  have hkeeps := @keeps_samePassword sealed flt user password
  obtain ⟨hsteady, p, ⟨pr, peerUid, rfl⟩, hexec⟩ :=
    h.asks hkeeps (fun p hserves => hkeeps.accept hreq hserves) hasks
  refine ⟨hsteady, ?_⟩
  rintro secret rfl
  obtain ⟨-, u, release, v, hu, -, hroute, -, hreleased⟩ := exec_dispatch_secret hexec rfl
  obtain rfl : u = user := Option.some.inj (hu.symm.trans huser)
  have hrelease : release = unsealPassword u := by
    cases hroute <;> rfl
  subst hrelease
  obtain ⟨_, _, _, _, _, _, _, _, _, _, _, _, _, _, hgated⟩ := hreleased
  exact good_of_unsealPassword hgated.unsealOk rfl

end Linhello.Daemon
