import Mathlib.Data.List.TakeWhile
import Linhello.Daemon.Lockstep
import Linhello.Pam.Login
/-!
# The login password and the sealed one

A password change that the module has logged as sealed, whatever the daemon is asked after
it, and a login: the token the login sets is the new password (`password_lockstep`).
-/

namespace Linhello.Pam

open Common Effect Linhello.Core Host Daemon

/-! ## A call against a running daemon -/

section Against

variable (sealed : SealedEnvelope → Option Bytes) (flt : Faults) (Accepts : Request → Prop)

/-- What the daemon does during an operation of the module. A request may be served although
its sender has given up on it. -/
def Meanwhile : (o : Op) → o.Ans → Linhellod → Linhellod → Prop
  | .request req, .ok resp, d, d' => ∃ m,
      Server.Steps (World.Step sealed flt) Restarts Accepts d m ∧
        Server.Asks (World.Step sealed flt) Restarts Accepts m req resp d'
  | .request req, .error _, d, d' =>
      Server.Steps (World.Step sealed flt) Restarts (fun other => Accepts other ∨ other = req) d d'
  | _, _, d, d' => Server.Steps (World.Step sealed flt) Restarts Accepts d d'

/-- The module's operations while the daemon takes requests of a kind from others. -/
def Against : Semantics pam (Session × Linhellod) := fun x o r y =>
  Step (fun _ _ => True) x.1 o r y.1 ∧ Meanwhile sealed flt Accepts o r x.2 y.2

end Against

def IsFor (name : Bytes) (events : List (Event pam)) : Prop :=
  ∀ b, ⟨.getUser, (.success, some b)⟩ ∈ events → b = name

def TokenIs (token : Bytes) (events : List (Event pam)) : Prop :=
  ∀ b, ⟨.getAuthtok, (.success, some b)⟩ ∈ events → b = token

variable {sealed : SealedEnvelope → Option Bytes} {flt : Faults} {Accepts : Request → Prop}
  {name password : Bytes} {user : String}

/-! ## The password change -/

theorem strnlen_of_fits (hnul : 0 ∉ password) (hfits : password.length ≤ BUF_LEN) :
    strnlen password BUF_LEN = password.length := by
  have hall : ∀ c ∈ password, decide (c ≠ 0) = true := by
    intro c hc
    rw [decide_eq_true_eq]
    rintro rfl
    exact hnul hc
  unfold strnlen cString
  rw [List.takeWhile_eq_self_iff.2 hall]
  omega

/-- The bridge returns 0 if and only if the daemon says the password is sealed. -/
theorem exec_linhelloResealPassword {x y : (Session × Linhellod) × List (Event pam)} {n : Int}
    (hname : toStr name = some user)
    (h : Exec (recorded (Against sealed flt Accepts))
      (linhelloResealPassword name password) x n y) :
    (∀ e ∈ y.2, e ∈ x.2 ∨ ∀ level msg, e.1 ≠ Op.syslog level msg) ∧
      (n = 0 → Meanwhile sealed flt Accepts (.request (.sealPassword user password))
        (.ok .passwordSealed) x.1.2 y.1.2) := by
  have hsilent : (linhelloResealPassword name password).Only
      fun o => ∀ level msg, o ≠ Op.syslog level msg := by
    unfold linhelloResealPassword
    split
    · exact .ret _
    · split
      · split
        · exact .ret _
        · refine only_bind (only_perform fun _ _ h => by cases h) fun r => ?_
          split <;> exact .ret _
      · exact .ret _
  refine ⟨hsilent.recorded h, ?_⟩
  rintro rfl
  unfold linhelloResealPassword at h
  by_cases hempty : password = []
  · rw [if_pos hempty] at h
    cases h.1
  · rw [if_neg hempty, hname] at h
    simp only at h
    by_cases hblank : user = ""
    · rw [if_pos hblank] at h
      cases h.1
    · rw [if_neg hblank] at h
      obtain ⟨r, v, hrequest, hrest⟩ := exec_bind.1 h
      obtain ⟨⟨-, hmeanwhile⟩, -⟩ := exec_perform.1 hrequest
      split at hrest
      · obtain ⟨-, rfl⟩ := hrest
        exact hmeanwhile
      · cases hrest.1

theorem inStep_of_chauthtok {s s' : Session} {d d' : Linhellod} {flags : BitVec 32} {code : PamCode}
    {events : List (Event pam)} (hname : toStr name = some user) (hnul : 0 ∉ password)
    (hfits : password.length < BUF_LEN) (hcalm : Calm user d)
    (h : Exec (recorded (Against sealed flt (Unrelated user))) (pamSmChauthtok flags) ((s, d), [])
      code ((s', d'), events))
    (hfor : IsFor name events) (htoken : TokenIs password events)
    (hlogged : ⟨.syslog .notice (resealedLine name), ()⟩ ∈ events) :
    InStep sealed user password d' := by
  have hkeeps : ∀ {x y : Linhellod},
      x.Steady (fun _ => True) (sparesPassword user) (fun _ => True) →
      Server.Steps (World.Step sealed flt) Restarts (Unrelated user) x y →
      y.Steady (fun _ => True) (sparesPassword user) fun _ => True :=
    fun hx hsteps => hx.steps (keeps_unrelated fun _ _ => trivial) hsteps
  unfold pamSmChauthtok at h
  split at h
  · obtain ⟨-, heq⟩ := h
    cases heq
    cases hlogged
  split at h
  · obtain ⟨-, heq⟩ := h
    cases heq
    cases hlogged
  obtain ⟨owner, ⟨⟨s₁, d₁⟩, es₁⟩, howner, h₁⟩ := exec_bind.1 h
  obtain ⟨⟨-, hsteps₁⟩, rfl⟩ := exec_perform.1 howner
  have hlog₁ := prefix_of_exec_recorded h₁
  split at h₁
  · next name' =>
      obtain rfl : name' = name := hfor _ (hlog₁.subset List.mem_cons_self)
      obtain ⟨item, ⟨⟨s₂, d₂⟩, es₂⟩, hitem, h₂⟩ := exec_bind.1 h₁
      obtain ⟨⟨-, hsteps₂⟩, rfl⟩ := exec_perform.1 hitem
      have hlog₂ := prefix_of_exec_recorded h₂
      split at h₂
      · next token =>
          obtain rfl : token = password := htoken _ (hlog₂.subset (by simp))
          have hlen := strnlen_of_fits hnul hfits.le
          simp only [hlen, List.take_length] at h₂
          split at h₂
          · obtain ⟨-, heq⟩ := h₂
            cases heq
            simp at hlogged
          · obtain ⟨rc, ⟨⟨s₃, d₃⟩, es₃⟩, hreseal, h₃⟩ := exec_bind.1 h₂
            obtain ⟨hsilent, hsealed⟩ := exec_linhelloResealPassword hname hreseal
            split at h₃
            · next hrc =>
                obtain ⟨_, v, hsyslog, -, rfl⟩ := exec_bind.1 h₃
                obtain ⟨⟨-, hsteps₄⟩, -⟩ := exec_perform.1 hsyslog
                obtain ⟨m, hsteps₃, hasks⟩ := hsealed hrc
                have hm := hkeeps (hkeeps (hkeeps hcalm.steady hsteps₁) hsteps₂) hsteps₃
                exact inStep_of_sealed hm hasks hsteps₄
            · -- only a warning was logged
              obtain ⟨_, v, hsyslog, -, rfl⟩ := exec_bind.1 h₃
              obtain ⟨-, hevents⟩ := exec_perform.1 hsyslog
              replace hevents : events = es₃ ++ _ := hevents
              rw [hevents] at hlogged
              rcases List.mem_append.1 hlogged with hbefore | hwarned
              · rcases hsilent _ hbefore with hearlier | hnot
                · simp at hearlier
                · exact absurd rfl (hnot _ _)
              · cases List.mem_singleton.1 hwarned
      · obtain ⟨-, heq⟩ := h₂
        cases heq
        simp at hlogged
  · obtain ⟨-, heq⟩ := h₁
    cases heq
    simp at hlogged

/-! ## The login -/

def asksFor (user : String) (o : Op) : Prop :=
  ∀ req, o = .request req → ∃ service, req = .authIntent user service ∨
    req = .authenticate user service

theorem asksFor_of_ne {o : Op} (h : ∀ req, o ≠ .request req) : asksFor user o :=
  fun req heq => absurd heq (h req)

private theorem asksFor_grantSecret {service buf : Bytes} {n : Int} :
    (grantSecret name service n buf).Only (asksFor user) := by
  unfold grantSecret
  split
  · exact only_bind (only_perform (asksFor_of_ne nofun)) fun _ => .ret _
  · refine only_bind (only_perform (asksFor_of_ne nofun)) fun rc => ?_
    split
    · exact only_bind (only_perform (asksFor_of_ne nofun)) fun _ => .ret _
    · exact only_bind (only_perform (asksFor_of_ne nofun)) fun _ => .ret _

private theorem asksFor_afterAttempt {service buf : Bytes} {deadline n : Int}
    {again : Proc (Option PamCode)} (h : again.Only (asksFor user)) :
    (afterAttempt name service deadline n buf again).Only (asksFor user) := by
  unfold afterAttempt
  split
  · exact only_map asksFor_grantSecret
  · split
    · exact only_bind (only_perform (asksFor_of_ne nofun)) fun _ => .ret _
    · refine only_bind (only_perform (asksFor_of_ne nofun)) fun now => ?_
      split
      · exact only_bind (only_perform (asksFor_of_ne nofun)) fun _ => .ret _
      · exact only_bind (only_perform (asksFor_of_ne nofun)) fun _ => h

private theorem asksFor_attemptLoop (hname : toStr name = some user) {service : Bytes}
    {deadline : Int}
    (fuel : Nat) : (attemptLoop name service deadline fuel).Only (asksFor user) := by
  induction fuel with
  | zero => exact .ret _
  | succ fuel ih =>
      refine only_bind (only_perform (asksFor_of_ne nofun)) fun buf => only_bind ?_ fun x => ?_
      · unfold linhelloAuthenticate
        split
        · exact .ret _
        · split
          · next u service' hu _ =>
              obtain rfl : user = u := Option.some.inj (hname.symm.trans hu)
              split
              · exact .ret _
              · refine only_bind (only_perform fun req heq => ?_) fun r => .ret _
                obtain rfl := Op.request.inj heq
                exact ⟨service', .inr rfl⟩
          · exact .ret _
      · exact asksFor_afterAttempt ih

theorem asksFor_engage (hname : toStr name = some user) {service notice : Bytes} {waits : Int}
    {fuel : Nat} : (engage name service notice waits fuel).Only (asksFor user) := by
  have hclock : (do
      let now ← perform .time
      attemptLoop name service (now + waits) fuel).Only (asksFor user) :=
    only_bind (only_perform (asksFor_of_ne nofun)) fun now => asksFor_attemptLoop hname fuel
  unfold engage
  by_cases hwaits : waits = 0
  · simp only [if_pos hwaits]
    exact only_bind (only_perform (asksFor_of_ne nofun)) fun _ => hclock
  · simp only [if_neg hwaits]
    exact hclock

theorem asksFor_linhelloAuthWillCapture (hname : toStr name = some user) {service msg : Bytes} :
    (linhelloAuthWillCapture name service msg).Only (asksFor user) := by
  unfold linhelloAuthWillCapture
  simp only
  split
  · next u service' hu _ =>
      obtain rfl : user = u := Option.some.inj (hname.symm.trans hu)
      split
      · exact .ret _
      · refine only_bind (only_perform fun req heq => ?_) fun r => ?_
        · obtain rfl := Op.request.inj heq
          exact ⟨service', .inl rfl⟩
        · split <;> exact .ret _
  · exact .ret _

def Named (name : Bytes) (e : Event pam) : Prop :=
  ∀ b, e = ⟨Op.getUser, (PamCode.success, some b)⟩ → b = name

/-- A login asks the daemon about the account PAM names, and about no other. -/
theorem guided_pamSmAuthenticate (hname : toStr name = some user) {argv : List Bytes} {fuel : Nat} :
    (pamSmAuthenticate argv fuel).Guided (Named name) (asksFor user) fun _ => True := by
  have hget : asksFor user Op.getUser := asksFor_of_ne nofun
  refine guided_bind (@guided_perform pam _ _ Op.getUser hget) fun owner howner => ?_
  split
  · next b =>
      obtain rfl : b = name := howner b rfl
      refine Program.Only.guided ?_
      refine only_bind (only_perform (asksFor_of_ne nofun)) fun item => ?_
      split
      · refine only_bind (only_perform (asksFor_of_ne nofun)) fun notice => ?_
        refine only_bind (asksFor_linhelloAuthWillCapture hname) fun ⟨willCapture, msg⟩ => ?_
        simp only
        split
        · exact only_bind (only_perform (asksFor_of_ne nofun)) fun _ => .ret _
        · exact asksFor_engage hname
      · exact .ret _
  · exact .ret trivial

/-- What the daemon answers while it is in step. -/
def InStepAnswers (password : Bytes) (_ : Request) (resp : Response) : Prop :=
  ∀ secret, resp = .passwordUnsealed secret → secret = password

theorem inStep_against {x y : Session × Linhellod} {o : Op} {r : o.Ans} (ho : asksFor user o)
    (hx : InStep sealed user password x.2)
    (h : Against sealed flt (SamePassword user password) x o r y) :
    Step (InStepAnswers password) x.1 o r y.1 ∧ InStep sealed user password y.2 := by
  obtain ⟨hstep, hmeanwhile⟩ := h
  have hkeeps := @keeps_samePassword sealed flt user password
  have hquiet : Server.Steps (World.Step sealed flt) Restarts (SamePassword user password) x.2 y.2 →
      InStep sealed user password y.2 := fun hsteps => Server.Steady.steps hkeeps hx hsteps
  obtain ⟨hallows, hrest⟩ := hstep
  cases o with
  | request req =>
      obtain ⟨service, hreq⟩ := ho req rfl
      have hsame : SamePassword user password req := by
        rintro other rfl
        rcases hreq with h | h <;> cases h
      have huser : req.user? = some user := by
        rcases hreq with rfl | rfl <;> rfl
      cases r with
      | ok resp =>
          obtain ⟨m, hsteps, hasks⟩ := hmeanwhile
          have hm : InStep sealed user password m := Server.Steady.steps hkeeps hx hsteps
          obtain ⟨hy, hanswer⟩ := hm.released hsame huser hasks
          refine ⟨⟨?_, hrest⟩, hy⟩
          intro resp' heq
          obtain rfl := Except.ok.inj heq
          exact hanswer
      | error e =>
          refine ⟨⟨(fun resp heq => by cases heq), hrest⟩, ?_⟩
          refine Server.Steady.steps (hkeeps.mono fun other hother => ?_) hx hmeanwhile
          rcases hother with hother | rfl
          · exact hother
          · exact hsame
  | _ => exact ⟨⟨hallows, hrest⟩, hquiet hmeanwhile⟩

/-- An attempt of a recorded login got an answer of a daemon in step. -/
theorem answered_of_recorded {α : Type} {p : Proc α} {a : α} {s : Session}
    {y : Session × List (Event pam)} {event : Event pam} {secret : Bytes}
    (h : Exec (recorded (Step (InStepAnswers password))) p (s, []) a y) (hevent : event ∈ y.2)
    (hattempt : attemptOf event = some (.ok (.passwordUnsealed secret))) : secret = password := by
  have hall : ∀ e ∈ y.2, e ∈ ([] : List (Event pam)) ∨
      ∀ released, attemptOf e = some (.ok (.passwordUnsealed released)) → released = password := by
    refine forall_recorded (fun {w o r v} hstep released hattempt => ?_) h
    unfold attemptOf at hattempt
    split at hattempt
    · next heq =>
        cases heq
        obtain rfl := Option.some.inj hattempt
        exact hstep.1 _ rfl released rfl
    · cases hattempt
  rcases hall event hevent with hnone | hanswer
  · cases hnone
  · exact hanswer secret hattempt

private theorem settled_unsealed {secret : Bytes} {before after : Option Bytes}
    (h : Settled (.ok (.passwordUnsealed secret)) .success before after) : after = some secret := by
  cases h with
  | secret _ _ => rfl

/-- For every password without a NUL that fits the module's buffer: once a change to it is logged
as sealed, a login that succeeds with an unsealed password sets exactly this one, whatever the
daemon is asked in between, next to the change and next to the login, short of sealing another. -/
theorem password_lockstep {s s' t t' : Session} {d d' e e' : Linhellod} {flags : BitVec 32}
    {code : PamCode} {argv : List Bytes} {fuel : Nat} {events events' : List (Event pam)}
    {secret : Bytes} (hname : toStr name = some user) (hnul : 0 ∉ password)
    (hpos : 1 ≤ password.length) (hfits : password.length ≤ 511) (hcalm : Calm user d)
    (hchange : Exec (recorded (Against sealed flt (Unrelated user))) (pamSmChauthtok flags)
      ((s, d), []) code ((s', d'), events))
    (hfor : IsFor name events) (htoken : TokenIs password events)
    (hlogged : ⟨.syslog .notice (resealedLine name), ()⟩ ∈ events)
    (hlater : Server.Steps (World.Step sealed flt) Restarts (SamePassword user password) d' e)
    (hlogin : Exec (recorded (Against sealed flt (SamePassword user password)))
      (pamSmAuthenticate argv fuel) ((t, e), []) (some .success) ((t', e'), events'))
    (hfor' : IsFor name events')
    (hunsealed : (attempts events').getLast? = some (.ok (.passwordUnsealed secret))) :
    t'.authtok = some password := by
  have hd' : InStep sealed user password d' :=
    inStep_of_chauthtok hname hnul (Nat.lt_succ_of_le hfits) hcalm hchange hfor htoken hlogged
  have he : InStep sealed user password e := Server.Steady.steps keeps_samePassword hd' hlater
  -- the module's side of the login, with what is known of the answers
  obtain ⟨u, hexec, rfl, -⟩ := (guided_pamSmAuthenticate hname).simulates
    (R := fun x u => x.1 = u ∧ InStep sealed user password x.2)
    (fun {x u o r y} ho ⟨hu, hx⟩ hstep => by
      subst hu
      obtain ⟨hsession, hy⟩ := inStep_against ho hx hstep
      exact ⟨y.1, hsession, rfl, hy⟩)
    hlogin (fun event hevent b heq => hfor' b (heq ▸ hevent)) ⟨rfl, he⟩
  have htokens : ReleasesTokens (InStepAnswers password) := by
    intro req released hserved
    obtain rfl := hserved released rfl
    exact ⟨List.length_pos_iff.1 hpos, hnul⟩
  obtain ⟨front, es, hevents, hfront, hcases⟩ := exec_pamSmAuthenticate htokens hexec
  rcases hcases with ⟨-, -, code', hcode, hne⟩ | ⟨start, -, houtcome⟩
  · exact absurd (Option.some.inj hcode).symm hne
  · obtain ⟨r, hlast, hsettled⟩ := houtcome.ended _ rfl
    replace hevents : events' = front ++ es := hevents
    rw [hevents, attempts_append, hfront, List.nil_append, hlast] at hunsealed
    obtain rfl := Option.some.inj hunsealed
    -- the last attempt is an event of the run, so its answer is known
    have hmem : (.ok (.passwordUnsealed secret)) ∈ attempts es := List.mem_of_getLast? hlast
    obtain ⟨event, hevent, hattempt⟩ := List.mem_filterMap.1 hmem
    have hrun : event ∈ events' := by
      rw [hevents]
      exact List.mem_append_right _ hevent
    obtain rfl : secret = password := answered_of_recorded hexec hrun hattempt
    exact settled_unsealed hsettled

/-! ## A change and a login

On the host whose administrator has set `tier=secure`, after an enrollment. -/

/-- The daemon answers in the order given; PAM knows one account, and `sudo` runs. -/
def scriptedAnswer (answers : List (Request × Response)) (x : Session × ℕ) : (o : Op) → o.Ans
  | .getUser => (.success, some (text "alice"))
  | .getService => (.success, some (text "sudo"))
  | .getAuthtok => (.success, some simulatedSecret)
  | .setAuthtok _ => .success
  | .info _ | .syslog _ _ | .nanosleep _ => ()
  | .time => (x.1.now / 1000 : Nat)
  | .stack len => List.replicate len 0
  | .request req =>
      match answers[x.2]? with
      | some (expected, resp) =>
          if expected = req then .ok resp else .error (.io (.other "timed out"))
      | none => .error (.io (.other "timed out"))

def answered (n : ℕ) : (o : Op) → o.Ans → ℕ
  | .request _, .ok _ => n + 1
  | _, _ => n

def Scripted (answers : List (Request × Response)) : Semantics pam (Session × ℕ) := fun x o r y =>
  r = scriptedAnswer answers x o ∧
    y = (⟨x.1.token o r, x.1.now, x.1.started o⟩, answered x.2 o r)

def scriptedStep (answers : List (Request × Response)) (_ : Unit)
    (x : (Session × ℕ) × List (Event pam)) (o : Op) :
    Option (o.Ans × (Session × ℕ) × List (Event pam)) :=
  let r := scriptedAnswer answers x.1 o
  some (r, (⟨x.1.1.token o r, x.1.1.now, x.1.1.started o⟩, answered x.1.2 o r), x.2 ++ [⟨o, r⟩])

theorem scriptedStep_sound {answers : List (Request × Response)} {c : Unit}
    {x v : (Session × ℕ) × List (Event pam)} {o : Op} {r : o.Ans}
    (h : scriptedStep answers c x o = some (r, v)) : recorded (Scripted answers) x o r v := by
  obtain ⟨rfl, rfl⟩ := Prod.mk.inj (Option.some.inj h)
  exact ⟨⟨rfl, rfl⟩, rfl⟩

/-- A scripted call is one against a daemon that goes through the stages. -/
theorem exec_scripted {answers : List (Request × Response)} {stage : ℕ → Linhellod}
    (hstage : ∀ n req resp, answers[n]? = some (req, resp) →
      Server.Asks (World.Step sealed flt) Restarts Accepts (stage n) req resp (stage (n + 1)))
    {α : Type} {p : Proc α} {x y : (Session × ℕ) × List (Event pam)} {a : α}
    (h : Exec (recorded (Scripted answers)) p x a y) :
    Exec (recorded (Against sealed flt Accepts)) p ((x.1.1, stage x.1.2), x.2) a
      ((y.1.1, stage y.1.2), y.2) := by
  refine exec_image (f := fun x => ((x.1.1, stage x.1.2), x.2)) ?_ h
  rintro w o r v ⟨⟨rfl, hv⟩, hlog⟩
  rw [hv]
  refine ⟨⟨⟨?_, rfl, rfl, le_refl _⟩, ?_⟩, hlog⟩
  · cases o with
    | time => rfl
    | stack len => exact List.length_replicate
    | setAuthtok token => rfl
    | request req => exact fun _ _ => trivial
    | _ => trivial
  · cases o with
    | request req =>
        simp only [scriptedAnswer]
        split
        · next expected resp hexpected =>
            by_cases heq : expected = req
            · subst heq
              rw [if_pos rfl]
              exact ⟨_, .refl, hstage _ _ _ hexpected⟩
            · rw [if_neg heq]
              exact .refl
        · exact .refl
    | _ => exact .refl

theorem account_of_scripted {answers : List (Request × Response)} {α : Type} {p : Proc α}
    {x : Session × ℕ} {y : (Session × ℕ) × List (Event pam)} {a : α}
    (h : Exec (recorded (Scripted answers)) p (x, []) a y) :
    IsFor (text "alice") y.2 ∧ TokenIs simulatedSecret y.2 := by
  have hall : ∀ e ∈ y.2, e ∈ ([] : List (Event pam)) ∨ ∃ x, e.2 = scriptedAnswer answers x e.1 :=
    forall_recorded (fun {w o r v} hstep => ⟨w, hstep.1⟩) h
  constructor
  · intro b hb
    rcases hall _ hb with hnone | ⟨x, hx⟩
    · cases hnone
    · exact Option.some.inj (Prod.mk.inj hx).2
  · intro b hb
    rcases hall _ hb with hnone | ⟨x, hx⟩
    · cases hnone
    · exact Option.some.inj (Prod.mk.inj hx).2

def isNotice (msg : Bytes) (e : Event pam) : Bool :=
  match e with
  | ⟨.syslog .notice logged, _⟩ => decide (logged = msg)
  | _ => false

private theorem mem_of_any_isNotice {msg : Bytes} {events : List (Event pam)}
    (h : events.any (isNotice msg) = true) : ⟨.syslog .notice msg, ()⟩ ∈ events := by
  obtain ⟨e, he, hnotice⟩ := List.any_eq_true.1 h
  unfold isNotice at hnotice
  split at hnotice
  · obtain rfl := of_decide_eq_true hnotice
    exact he
  · cases hnotice

/-- The user's envelopes are resealed between the password change and the login. -/
theorem password_lockstep_alice : ∃ (d d' e e' : Linhellod) (s' t' : Session)
    (events events' : List (Event pam)),
    Exec (recorded (Against simulatedUnseal .none (Unrelated "alice")))
      (pamSmChauthtok PAM_UPDATE_AUTHTOK) ((⟨none, 0, []⟩, d), []) .success ((s', d'), events) ∧
    ⟨.syslog .notice (resealedLine (text "alice")), ()⟩ ∈ events ∧
    Server.Asks (World.Step simulatedUnseal .none) Restarts (SamePassword "alice" simulatedSecret)
      d' (.resealUserEnvelopes "alice") (.userEnvelopesResealed true true) e ∧
    Exec (recorded (Against simulatedUnseal .none (SamePassword "alice" simulatedSecret)))
      (pamSmAuthenticate [] 1) ((⟨none, 0, []⟩, e), []) (some .success) ((t', e'), events') ∧
    t'.authtok = some simulatedSecret := by
  obtain ⟨w, resp, -, -, hseal, hreseal, hintent, hauth⟩ := released_worlds
  let stage : ℕ → Linhellod := fun n => ⟨w (n + 1), fun _ => none⟩
  have hasks : ∀ {Accepts : Request → Prop} {n m : ℕ} {req : Request} {resp : Response},
      Exec (World.Step simulatedUnseal .none) (dispatch simulatedProcess req (some 0)) (w (n + 1))
        resp (w (m + 1)) →
      Server.Asks (World.Step simulatedUnseal .none) Restarts Accepts (stage n)
        req resp (stage m) :=
    fun hexec => Server.asks_of_exec (x := stage _) (i := 0) rfl ⟨_, _, rfl⟩ hexec
  have hchanged : (execute (scriptedStep
      [(.sealPassword "alice" simulatedSecret, .passwordSealed)])
      (pamSmChauthtok PAM_UPDATE_AUTHTOK) ((⟨none, 0, []⟩, 0), []) (List.replicate 4 ())).map
      (fun x => (x.1, x.2.1.2, x.2.2.any (isNotice (resealedLine (text "alice"))))) =
      some (.success, 1, true) := by decide +kernel
  have hlogged : (execute (scriptedStep [(.authIntent "alice" "sudo", .authPlan true "unseal" none),
      (.authenticate "alice" "sudo", .passwordUnsealed simulatedSecret)])
      (pamSmAuthenticate [] 1) ((⟨none, 0, []⟩, 0), []) (List.replicate 12 ())).map
      (fun x => (x.1, x.2.1.2, (attempts x.2.2).getLast?.map (·.toOption))) =
      some (some .success, 2, some (some (.passwordUnsealed simulatedSecret))) := by decide +kernel
  obtain ⟨⟨code, ⟨s', n⟩, events⟩, hrun, heq⟩ := Option.map_eq_some_iff.1 hchanged
  obtain ⟨rfl, heq⟩ := Prod.mk.inj heq
  obtain ⟨rfl, hnotice⟩ := Prod.mk.inj heq
  obtain ⟨⟨res, ⟨t', n⟩, events'⟩, hrun', heq⟩ := Option.map_eq_some_iff.1 hlogged
  obtain ⟨rfl, heq⟩ := Prod.mk.inj heq
  obtain ⟨rfl, hlast⟩ := Prod.mk.inj heq
  have hexec := exec_of_execute (fun _ _ _ _ _ => scriptedStep_sound) hrun
  have hexec' := exec_of_execute (fun _ _ _ _ _ => scriptedStep_sound) hrun'
  obtain ⟨hfor, htoken⟩ := account_of_scripted hexec
  obtain ⟨hfor', -⟩ := account_of_scripted hexec'
  have hstages : ∀ n req resp,
      [(Request.sealPassword "alice" simulatedSecret, Response.passwordSealed)][n]? =
        some (req, resp) →
      Server.Asks (World.Step simulatedUnseal .none) Restarts (Unrelated "alice") (stage n) req resp
        (stage (n + 1)) := by
    intro n req resp hn
    match n, hn with
    | 0, hn =>
        cases hn
        exact hasks hseal
    | n + 1, hn => cases hn
  have hstages' : ∀ n req resp,
      [(Request.authIntent "alice" "sudo", Response.authPlan true "unseal" none),
        (Request.authenticate "alice" "sudo", Response.passwordUnsealed simulatedSecret)][n]? =
        some (req, resp) →
      Server.Asks (World.Step simulatedUnseal .none) Restarts (SamePassword "alice" simulatedSecret)
        (stage (n + 2)) req resp (stage (n + 3)) := by
    intro n req resp hn
    match n, hn with
    | 0, hn =>
        cases hn
        exact hasks hintent
    | 1, hn =>
        cases hn
        exact hasks hauth
    | n + 2, hn => cases hn
  have hchange := @exec_scripted simulatedUnseal .none (Unrelated "alice") _ stage hstages _ _ _ _ _
    hexec
  have hlogin := @exec_scripted simulatedUnseal .none (SamePassword "alice" simulatedSecret) _
    (fun n => stage (n + 2)) hstages' _ _ _ _ _ hexec'
  have hunsealed :
      (attempts events').getLast? = some (.ok (.passwordUnsealed simulatedSecret)) := by
    obtain ⟨r, hr, hok⟩ := Option.map_eq_some_iff.1 hlast
    rw [show (attempts events').getLast? = some r from hr]
    cases r with
    | ok resp => rw [Option.some.inj hok]
    | error e => cases hok
  have hname : toStr (text "alice") = some "alice" := by decide +kernel
  have hnotice : ⟨.syslog .notice (resealedLine (text "alice")), ()⟩ ∈ events :=
    mem_of_any_isNotice hnotice
  have hsame : SamePassword "alice" simulatedSecret (.resealUserEnvelopes "alice") :=
    fun other heq => by cases heq
  refine ⟨stage 0, stage 1, stage 2, _, s', t', events, events', hchange, hnotice, hasks hreseal,
    hlogin, ?_⟩
  exact password_lockstep hname (by decide) (by decide) (by decide) (fun id job h => by cases h)
    hchange hfor htoken hnotice (Server.steps_of_asks hsame (hasks hreseal)) hlogin hfor' hunsealed

end Linhello.Pam
