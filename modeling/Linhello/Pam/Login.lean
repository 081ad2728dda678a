import Linhello.Daemon.Passwords
import Linhello.Daemon.Tiers
import Linhello.Pam.Module
/-!
# What a login ends in

One call of the PAM module against a daemon in a state it reaches: the token is set to the
released password and to nothing else, and a call succeeds without a token on a match only
(`pam_login`).
-/

namespace Linhello.Pam

open Common Effect Linhello.Core Host Daemon

/-! ## The semantics of a call -/

/-- The PAM handle's token, the time in milliseconds, and when attempts were started. -/
structure Session where
  authtok : Option Bytes
  now : Nat
  starts : List Nat

/-- What an operation may answer: `served` says which responses the daemon gives; an item
can always be set; everything else is free. -/
def Session.allows (served : Request → Response → Prop) (w : Session) : (o : Op) → o.Ans → Prop
  | .time, t => t = (w.now / 1000 : Nat)
  | .stack len, buf => buf.length = len
  | .setAuthtok _, rc => rc = .success
  | .request req, r => ∀ resp, r = .ok resp → served req resp
  | _, _ => True

def Session.token (w : Session) : (o : Op) → o.Ans → Option Bytes
  | .setAuthtok token, .success => some token
  | _, _ => w.authtok

def Session.started (w : Session) : Op → List Nat
  | .request (.authenticate _ _) => w.starts ++ [w.now]
  | _ => w.starts

def Step (served : Request → Response → Prop) : Semantics pam Session := fun w o r w' =>
  w.allows served o r ∧ w'.authtok = w.token o r ∧ w'.starts = w.started o ∧ w.now ≤ w'.now

/-! ## What a call did -/

def attemptOf : Event pam → Option (Except LinuxHelloError Response)
  | ⟨.request (.authenticate _ _), r⟩ => some r
  | _ => none

/-- The daemon's answers to the attempts, in order. -/
def attempts (events : List (Event pam)) : List (Except LinuxHelloError Response) :=
  events.filterMap attemptOf

def readingOf : Event pam → Option Int
  | ⟨.time, t⟩ => some t
  | _ => none

def readings (events : List (Event pam)) : List Int := events.filterMap readingOf

theorem attempts_append (es es' : List (Event pam)) :
    attempts (es ++ es') = attempts es ++ attempts es' := List.filterMap_append

theorem readings_append (es es' : List (Event pam)) :
    readings (es ++ es') = readings es ++ readings es' := List.filterMap_append

/-- An attempt starts at first (`may`), or when the clock, read since the attempt before,
showed less than the deadline. -/
def Paced (deadline : Int) : Prop → List (Event pam) → Prop
  | _, [] => True
  | may, ⟨.request (.authenticate _ _), _⟩ :: es => may ∧ Paced deadline False es
  | _, ⟨.time, t⟩ :: es => Paced deadline (t < deadline) es
  | may, _ :: es => Paced deadline may es

/-- What the last attempt's answer makes of a call. -/
inductive Settled : Except LinuxHelloError Response → PamCode → Option Bytes → Option Bytes → Prop
  | secret {s : Bytes} {before : Option Bytes} (hpos : 1 ≤ s.length) (hfits : s.length ≤ 511) :
      Settled (.ok (.passwordUnsealed s)) .success before (some s)
  | matched {score : WithBot ℚ} {threshold : ℚ} {before : Option Bytes} :
      Settled (.ok (.verified true score threshold)) .success before before
  | declined {r : Except LinuxHelloError Response} {before : Option Bytes}
      (hsecret : ∀ s, r = .ok (.passwordUnsealed s) → 512 ≤ s.length)
      (hmatch : ∀ score threshold, r ≠ .ok (.verified true score threshold)) :
      Settled r .authErr before before

/-- What the loop does in at most `fuel` attempts. -/
structure LoopOutcome (deadline : Int) (fuel : Nat) (before after : Option Bytes)
    (events : List (Event pam)) (res : Option PamCode) : Prop where
  ended : ∀ code, res = some code →
    ∃ r, (attempts events).getLast? = some r ∧ Settled r code before after
  running : res = none → after = before ∧ (readings events).length = fuel ∧
    ∀ t ∈ readings events, t < deadline
  paced : Paced deadline True events

/-! ## One attempt -/

section Attempt

variable {served : Request → Response → Prop} {user service buf : Bytes} {u s : String}
  {x y : Session × List (Event pam)}

theorem asI32_of_le {n : Nat} (h : n ≤ 512) : asI32 n = n := by
  unfold asI32
  rw [Int.bmod_def]
  omega

theorem cString_copyTo {secret : Bytes} (hnul : 0 ∉ secret) (hlen : secret.length < buf.length) :
    cString ((copyTo buf secret).set secret.length 0) = secret := by
  have hdrop : buf.drop secret.length ≠ [] := by
    rw [Ne, List.drop_eq_nil_iff]
    omega
  obtain ⟨c, rest, hrest⟩ := List.exists_cons_of_ne_nil hdrop
  have hset : (copyTo buf secret).set secret.length 0 = secret ++ 0 :: rest := by
    rw [copyTo, hrest, List.set_append_right _ _ (Nat.le_refl _), Nat.sub_self]
    rfl
  have hall : ∀ c ∈ secret, (decide (c ≠ 0)) = true := by
    intro c hc
    rw [decide_eq_true_eq]
    rintro rfl
    exact hnul hc
  rw [cString, hset, List.takeWhile_append_of_pos hall, List.takeWhile_cons_of_neg (by decide),
    List.append_nil]

theorem linhelloAuthenticate_eq (hbuf : buf ≠ []) (hu : toStr user = some u) (hne : u ≠ "")
    (hs : toStr service = some s) : linhelloAuthenticate user service buf =
      (perform (.request (.authenticate u s)) >>= fun r => pure (authenticateResult buf r)) := by
  unfold linhelloAuthenticate
  rw [if_neg hbuf, hu, hs]
  simp only [if_neg hne]

/-- A released password that fits is the token of a call that succeeds. -/
theorem exec_grantSecret {secret : Bytes} {n : Int} {code : PamCode} (hnul : 0 ∉ secret)
    (hbuf : buf.length = BUF_LEN) (hn : n = secret.length)
    (h : Exec (recorded (Step served)) (grantSecret user service n (copyTo buf secret)) x code y) :
    (∃ es, y.2 = x.2 ++ es ∧ attempts es = [] ∧ readings es = [] ∧
      ∀ deadline may, Paced deadline may es) ∧
    (secret.length ≤ 511 → code = .success ∧ y.1.authtok = some secret) ∧
    (512 ≤ secret.length → code = .authErr ∧ y.1.authtok = x.1.authtok) := by
  unfold grantSecret at h
  rw [hn] at h
  by_cases hbig : (BUF_LEN : Int) ≤ secret.length
  · rw [if_pos hbig] at h
    obtain ⟨_, v, ⟨⟨-, htoken, -⟩, hlog⟩, rfl, rfl⟩ := h
    have hlen512 : 512 ≤ secret.length := by exact_mod_cast hbig
    refine ⟨⟨_, hlog, rfl, rfl, fun _ _ => trivial⟩, fun hfits => by omega, fun _ => ⟨rfl, htoken⟩⟩
  · rw [if_neg hbig] at h
    have hlt : secret.length < buf.length := by
      rw [hbuf]
      exact_mod_cast not_le.1 hbig
    rw [Int.toNat_natCast, cString_copyTo hnul hlt] at h
    obtain ⟨rc, v, ⟨⟨hrc, htoken, -⟩, hlog⟩, hrest⟩ := h
    obtain rfl : rc = .success := hrc
    obtain ⟨_, z, ⟨⟨-, htoken', -⟩, hlog'⟩, rfl, rfl⟩ := hrest
    rw [hlog, List.append_assoc] at hlog'
    refine ⟨⟨_, hlog', rfl, rfl, fun _ _ => trivial⟩, ?_, ?_⟩
    · exact fun _ => ⟨rfl, htoken'.trans htoken⟩
    · rw [hbuf] at hlt
      exact fun h512 => absurd hlt (not_lt.2 h512)

/-! ## The loop -/

/-- The released secrets are non-empty C strings. -/
def ReleasesTokens (served : Request → Response → Prop) : Prop :=
  ∀ req secret, served req (.passwordUnsealed secret) → secret ≠ [] ∧ 0 ∉ secret

/-- An answer is a secret that fits the buffer, a match, or neither. -/
theorem authenticateResult_cases (hbuf : buf.length = BUF_LEN)
    (r : Except LinuxHelloError Response) :
    (∃ secret, r = .ok (.passwordUnsealed secret) ∧ secret.length ≤ 512 ∧
      authenticateResult buf r = (asI32 secret.length, copyTo buf secret)) ∨
    (∃ score threshold, r = .ok (.verified true score threshold) ∧
      authenticateResult buf r = (0, buf)) ∨
    ((∀ s, r = .ok (.passwordUnsealed s) → 512 ≤ s.length) ∧
      (∀ score threshold, r ≠ .ok (.verified true score threshold)) ∧
      authenticateResult buf r = (-1, buf)) := by
  unfold authenticateResult
  split
  · next secret =>
      by_cases hlen : buf.length < secret.length
      · rw [if_pos hlen]
        rw [hbuf] at hlen
        refine .inr (.inr ⟨fun s hs => ?_, fun score threshold hs => ?_, rfl⟩)
        · cases hs
          exact hlen.le
        · cases hs
      · rw [if_neg hlen]
        rw [hbuf] at hlen
        exact .inl ⟨secret, rfl, not_lt.1 hlen, rfl⟩
  · exact .inr (.inl ⟨_, _, rfl, rfl⟩)
  · next hsecret hmatch =>
      exact .inr (.inr ⟨fun s hs => (hsecret s hs).elim, fun a b h => hmatch a b h, rfl⟩)

/-- What an attempt and its sequel come to; `again` has the loop's specification. -/
theorem exec_afterAttempt (htokens : ReleasesTokens served) {deadline n : Int} {fuel : Nat}
    {buf' : Bytes} {again : Proc (Option PamCode)} {res : Option PamCode}
    {r : Except LinuxHelloError Response} {req : Request} (hbuf : buf.length = BUF_LEN)
    (hserved : ∀ resp, r = .ok resp → served req resp)
    (hresult : authenticateResult buf r = (n, buf'))
    (ih : ∀ {x y res}, Exec (recorded (Step served)) again x res y →
      ∃ es, y.2 = x.2 ++ es ∧ LoopOutcome deadline fuel x.1.authtok y.1.authtok es res)
    (h : Exec (recorded (Step served)) (afterAttempt user service deadline n buf' again) x res y) :
    ∃ es, y.2 = x.2 ++ es ∧
      (∀ code, res = some code → ∃ r', (r :: attempts es).getLast? = some r' ∧
        Settled r' code x.1.authtok y.1.authtok) ∧
      (res = none → y.1.authtok = x.1.authtok ∧ (readings es).length = fuel + 1 ∧
        ∀ t ∈ readings es, t < deadline) ∧
      Paced deadline False es := by
  unfold afterAttempt at h
  rcases authenticateResult_cases hbuf r with ⟨secret, rfl, hlen, heq⟩ |
    ⟨score, threshold, rfl, heq⟩ | ⟨hsecret, hmatch, heq⟩
  · -- a secret came back: it is not empty, so its length is positive
    obtain ⟨hi32, rfl⟩ := Prod.mk.inj (heq.symm.trans hresult)
    have hn : n = secret.length := hi32.symm.trans (asI32_of_le hlen)
    obtain ⟨hnonempty, hnul⟩ := htokens _ secret (hserved _ rfl)
    have hpos : 1 ≤ secret.length := List.length_pos_iff.2 hnonempty
    have hpositive : 0 < n := by
      rw [hn]
      exact_mod_cast hpos
    rw [if_pos hpositive] at h
    obtain ⟨code, hgrant, rfl⟩ := exec_map.1 h
    obtain ⟨⟨es, hes, hattempts, -, hpaced⟩, hfits, hbig⟩ := exec_grantSecret hnul hbuf hn hgrant
    refine ⟨es, hes, fun code' hcode => ?_, (fun hnone => by cases hnone), hpaced _ _⟩
    obtain rfl : code = code' := Option.some.inj hcode
    rw [hattempts]
    refine ⟨_, rfl, ?_⟩
    by_cases h511 : secret.length ≤ 511
    · obtain ⟨rfl, htoken⟩ := hfits h511
      rw [htoken]
      exact .secret hpos h511
    · have h512 : 512 ≤ secret.length := by omega
      obtain ⟨rfl, htoken⟩ := hbig h512
      rw [htoken]
      refine .declined (fun s hs => ?_) fun _ _ hs => by cases hs
      cases hs
      exact h512
  · obtain ⟨rfl, rfl⟩ := Prod.mk.inj (hresult.symm.trans heq)
    rw [if_neg (by decide), if_pos rfl] at h
    obtain ⟨_, v, ⟨⟨-, htoken, -⟩, hlog⟩, rfl, rfl⟩ := h
    refine ⟨_, hlog, fun code hcode => ?_, (fun hnone => by cases hnone), trivial⟩
    obtain rfl := Option.some.inj hcode
    refine ⟨_, rfl, ?_⟩
    rw [htoken]
    exact .matched
  · obtain ⟨rfl, rfl⟩ := Prod.mk.inj (hresult.symm.trans heq)
    rw [if_neg (by decide), if_neg (by decide)] at h
    obtain ⟨now, v, htime, hrest⟩ := exec_bind.1 h
    obtain ⟨⟨-, htoken, -⟩, hlog⟩ := exec_perform.1 htime
    by_cases hlate : deadline ≤ now
    · rw [if_pos hlate] at hrest
      obtain ⟨_, z, ⟨⟨-, htoken', -⟩, hlog'⟩, rfl, rfl⟩ := hrest
      rw [hlog, List.append_assoc] at hlog'
      refine ⟨_, hlog', fun code hcode => ?_, (fun hnone => by cases hnone), trivial⟩
      obtain rfl := Option.some.inj hcode
      refine ⟨_, rfl, ?_⟩
      rw [htoken'.trans htoken]
      exact .declined hsecret hmatch
    · rw [if_neg hlate] at hrest
      obtain ⟨_, z, ⟨⟨-, htoken', -⟩, hlog'⟩, hagain⟩ := hrest
      obtain ⟨es, hes, houtcome⟩ := ih hagain
      rw [htoken'.trans htoken] at houtcome
      rw [hlog', hlog, List.append_assoc, List.append_assoc] at hes
      refine ⟨_, hes, fun code hcode => ?_, fun hnone => ?_, ?_⟩
      · obtain ⟨r', hlast, hsettled⟩ := houtcome.ended code hcode
        refine ⟨r', ?_, hsettled⟩
        have hattempts :
            attempts ([⟨.time, now⟩] ++ ([⟨.nanosleep 400, ()⟩] ++ es)) = attempts es :=
          rfl
        rw [hattempts, List.getLast?_cons, hlast]
        rfl
      · obtain ⟨hbefore, hcount, hreadings⟩ := houtcome.running hnone
        refine ⟨hbefore, congrArg (· + 1) hcount, fun t ht => ?_⟩
        rcases List.mem_cons.1 ht with rfl | ht
        · exact not_le.1 hlate
        · exact hreadings t ht
      · have hmay : (now < deadline) = True := eq_true (not_le.1 hlate)
        have hpaced := houtcome.paced
        rw [← hmay] at hpaced
        exact hpaced

theorem exec_attemptLoop (htokens : ReleasesTokens served) (hu : toStr user = some u) (hne : u ≠ "")
    (hs : toStr service = some s) {deadline : Int} {fuel : Nat} {res : Option PamCode}
    (h : Exec (recorded (Step served)) (attemptLoop user service deadline fuel) x res y) :
    ∃ es, y.2 = x.2 ++ es ∧ LoopOutcome deadline fuel x.1.authtok y.1.authtok es res := by
  induction fuel generalizing x y res with
  | zero =>
      obtain ⟨rfl, rfl⟩ := h
      refine ⟨[], (List.append_nil _).symm, ⟨(fun code hcode => by cases hcode), ?_, trivial⟩⟩
      exact fun _ => ⟨rfl, rfl, fun t ht => absurd ht List.not_mem_nil⟩
  | succ fuel ih =>
      unfold attemptLoop at h
      obtain ⟨buf, v, hstack, h₁⟩ := exec_bind.1 h
      obtain ⟨⟨hlen, htoken, -⟩, hlog⟩ := exec_perform.1 hstack
      replace hlen : buf.length = BUF_LEN := hlen
      have hbuf : buf ≠ [] := by
        rintro rfl
        cases hlen
      rw [linhelloAuthenticate_eq hbuf hu hne hs, Program.bind_assoc] at h₁
      obtain ⟨r, z, hrequest, h₂⟩ := exec_bind.1 h₁
      obtain ⟨⟨hserved, htoken', -⟩, hlog'⟩ := exec_perform.1 hrequest
      obtain ⟨es, hes, hended, hrunning, hpaced⟩ := exec_afterAttempt htokens hlen hserved rfl ih h₂
      rw [hlog', hlog, List.append_assoc, List.append_assoc] at hes
      rw [htoken'.trans htoken] at hended hrunning
      exact ⟨_, hes, ⟨hended, hrunning, trivial, hpaced⟩⟩

/-! ## The call -/

/-- The pre-flight makes no attempt, and a call that goes on has a user and a service. -/
theorem exec_linhelloAuthWillCapture {n : Int} {msg msg' : Bytes}
    (h : Exec (recorded (Step served)) (linhelloAuthWillCapture user service msg) x (n, msg') y) :
    (∃ es, y.2 = x.2 ++ es ∧ attempts es = [] ∧ readings es = []) ∧ y.1.authtok = x.1.authtok ∧
      (0 < n → ∃ u s, toStr user = some u ∧ u ≠ "" ∧ toStr service = some s) := by
  have hstop : ∀ {msg : Bytes} {Q : Prop}, (n, msg') = ((-1 : Int), msg) → y = x →
      (∃ es, y.2 = x.2 ++ es ∧ attempts es = [] ∧ readings es = []) ∧ y.1.authtok = x.1.authtok ∧
        (0 < n → Q) := by
    rintro msg Q hn rfl
    obtain ⟨rfl, -⟩ := Prod.mk.inj hn
    exact ⟨⟨[], (List.append_nil _).symm, rfl, rfl⟩, rfl, fun h => absurd h (by decide)⟩
  unfold linhelloAuthWillCapture at h
  cases hu : toStr user with
  | none =>
      rw [hu] at h
      exact hstop h.1 h.2
  | some u =>
      cases hs : toStr service with
      | none =>
          rw [hu, hs] at h
          exact hstop h.1 h.2
      | some s =>
          rw [hu, hs] at h
          simp only at h
          by_cases hempty : u = ""
          · rw [if_pos hempty] at h
            exact hstop h.1 h.2
          · rw [if_neg hempty] at h
            obtain ⟨r, v, hrequest, hrest⟩ := exec_bind.1 h
            obtain ⟨⟨-, htoken, -⟩, hlog⟩ := exec_perform.1 hrequest
            have hend : y = v := by
              split at hrest
              · exact hrest.2
              · exact hrest.2
            subst hend
            exact ⟨⟨_, hlog, rfl, rfl⟩, htoken, fun _ => ⟨u, s, rfl, hempty, rfl⟩⟩

private theorem exec_engage {notice : Bytes} {waits : Int} {fuel : Nat} {res : Option PamCode}
    (h : Exec (recorded (Step served)) (engage user service notice waits fuel) x res y) :
    ∃ front start v, v.2 = x.2 ++ front ∧ attempts front = [] ∧ readings front = [start] ∧
      v.1.authtok = x.1.authtok ∧
      Exec (recorded (Step served)) (attemptLoop user service (start + waits) fuel) v res y := by
  have hclock : ∀ {z}, Exec (recorded (Step served)) (do
      let now ← perform .time
      attemptLoop user service (now + waits) fuel) z res y →
      ∃ start v, v.2 = z.2 ++ [⟨.time, start⟩] ∧ v.1.authtok = z.1.authtok ∧
        Exec (recorded (Step served)) (attemptLoop user service (start + waits) fuel) v res y := by
    intro z hz
    obtain ⟨start, v, htime, hloop⟩ := exec_bind.1 hz
    obtain ⟨⟨-, htoken, -⟩, hlog⟩ := exec_perform.1 htime
    exact ⟨start, v, hlog, htoken, hloop⟩
  unfold engage at h
  by_cases hwaits : waits = 0
  · simp only [if_pos hwaits] at h
    obtain ⟨_, z, hinfo, hrest⟩ := exec_bind.1 h
    obtain ⟨⟨-, htoken, -⟩, hlog⟩ := exec_perform.1 hinfo
    obtain ⟨start, v, hlog', htoken', hloop⟩ := hclock hrest
    rw [hlog, List.append_assoc] at hlog'
    exact ⟨_, start, v, hlog', rfl, rfl, htoken'.trans htoken, hloop⟩
  · simp only [if_neg hwaits] at h
    obtain ⟨start, v, hlog, htoken, hloop⟩ := hclock h
    exact ⟨_, start, v, hlog, rfl, rfl, htoken, hloop⟩

/-- A call stops before its loop, or runs the loop with a deadline `waits` after a reading. -/
theorem exec_pamSmAuthenticate (htokens : ReleasesTokens served) {argv : List Bytes} {fuel : Nat}
    {res : Option PamCode}
    (h : Exec (recorded (Step served)) (pamSmAuthenticate argv fuel) x res y) :
    ∃ front es, y.2 = x.2 ++ front ++ es ∧ attempts front = [] ∧
      ((es = [] ∧ y.1.authtok = x.1.authtok ∧ ∃ code, res = some code ∧ code ≠ .success) ∨
        ∃ start, readings front = [start] ∧
          LoopOutcome (start + waitSeconds argv) fuel x.1.authtok y.1.authtok es res) := by
  have hquit : ∀ {front code}, y.2 = x.2 ++ front → attempts front = [] →
      y.1.authtok = x.1.authtok → res = some code → code ≠ .success →
      ∃ front es, y.2 = x.2 ++ front ++ es ∧ attempts front = [] ∧
        ((es = [] ∧ y.1.authtok = x.1.authtok ∧ ∃ code, res = some code ∧ code ≠ .success) ∨
          ∃ start, readings front = [start] ∧
            LoopOutcome (start + waitSeconds argv) fuel x.1.authtok y.1.authtok es res) := by
    intro front code hlog hattempts htoken hres hcode
    exact ⟨front, [], by
      rw [hlog, List.append_nil], hattempts, .inl ⟨rfl, htoken, code, hres, hcode⟩⟩
  unfold pamSmAuthenticate at h
  obtain ⟨owner, v₁, hget, h₁⟩ := exec_bind.1 h
  obtain ⟨⟨-, htoken₁, -⟩, hlog₁⟩ := exec_perform.1 hget
  split at h₁
  · next user =>
      obtain ⟨item, v₂, hget, h₂⟩ := exec_bind.1 h₁
      obtain ⟨⟨-, htoken₂, -⟩, hlog₂⟩ := exec_perform.1 hget
      rw [hlog₁, List.append_assoc] at hlog₂
      replace htoken₂ : v₂.1.authtok = x.1.authtok := htoken₂.trans htoken₁
      split at h₂
      · next service =>
          obtain ⟨notice, v₃, hstack, h₃⟩ := exec_bind.1 h₂
          obtain ⟨⟨-, htoken₃, -⟩, hlog₃⟩ := exec_perform.1 hstack
          obtain ⟨⟨n, msg⟩, v₄, hcapture, h₄⟩ := exec_bind.1 h₃
          obtain ⟨⟨es, hes, hattempts, hreadings⟩, htoken₄, hnames⟩ :=
            exec_linhelloAuthWillCapture hcapture
          rw [hlog₃, hlog₂, List.append_assoc, List.append_assoc] at hes
          replace htoken₄ : v₄.1.authtok = x.1.authtok := htoken₄.trans (htoken₃.trans htoken₂)
          by_cases hnone : n ≤ 0
          · simp only [if_pos hnone] at h₄
            obtain ⟨_, v₅, ⟨⟨-, htoken₅, -⟩, hlog₅⟩, rfl, rfl⟩ := h₄
            rw [hes, List.append_assoc] at hlog₅
            refine hquit hlog₅ ?_ (htoken₅.trans htoken₄) rfl (by decide)
            calc attempts _ = attempts (es ++ _) := rfl
              _ = [] := by rw [attempts_append, hattempts]; rfl
          · simp only [if_neg hnone] at h₄
            obtain ⟨u, s, hu, hne, hs⟩ := hnames (not_le.1 hnone)
            obtain ⟨front, start, v₅, hfront, hattempts', hreadings', htoken₅, hloop⟩ :=
              exec_engage h₄
            obtain ⟨es', hes', houtcome⟩ := exec_attemptLoop htokens hu hne hs hloop
            rw [htoken₅.trans htoken₄] at houtcome
            rw [hfront, hes] at hes'
            refine ⟨[⟨.getUser, (.success, some user)⟩] ++
              ([⟨.getService, (.success, some service)⟩]
              ++ ([⟨.stack NOTICE_LEN, notice⟩] ++ (es ++ front))), es',
              by simpa only [List.append_assoc] using hes', ?_, .inr ⟨start, ?_, houtcome⟩⟩
            · calc attempts _ = attempts (es ++ front) := rfl
                _ = [] := by rw [attempts_append, hattempts, hattempts', List.append_nil]
            · calc readings _ = readings (es ++ front) := rfl
                _ = [start] := by rw [readings_append, hreadings, hreadings', List.nil_append]
      · obtain ⟨rfl, rfl⟩ := h₂
        exact hquit hlog₂ rfl htoken₂ rfl (by decide)
  · obtain ⟨rfl, rfl⟩ := h₁
    exact hquit hlog₁ rfl htoken₁ rfl (by decide)

end Attempt

/-! ## The law -/

section Law

variable {sealed : SealedEnvelope → Option Bytes} {flt : Faults}

def Token (secret : Bytes) : Prop := secret ≠ [] ∧ 0 ∉ secret

/-- A call against the daemon, in the states it reaches when no password it is given to seal
contains a NUL. -/
abbrev Call (sealed : SealedEnvelope → Option Bytes) (flt : Faults) (argv : List Bytes)
    (fuel : Nat) (w : Session) (res : Option PamCode) (w' : Session) (events : List (Event pam)) :
    Prop :=
  Exec (recorded (Step (Answered sealed flt Token))) (pamSmAuthenticate argv fuel) (w, []) res
    (w', events)

/-- What the last attempt's answer says about a call that is over. -/
theorem settled_iff {r : Except LinuxHelloError Response} {code : PamCode} {after : Option Bytes}
    (h : Settled r code none after) :
    (∀ token, code = .success ∧ after = some token ↔
      r = .ok (.passwordUnsealed token) ∧ 1 ≤ token.length ∧ token.length ≤ 511) ∧
    (code = .success ∧ after = none ↔
      ∃ score threshold, r = .ok (.verified true score threshold)) ∧
    (code ≠ .success → after = none) := by
  cases h with
  | @secret s _ hpos hfits =>
      refine ⟨fun token => ?_, ?_, fun h => absurd rfl h⟩
      · constructor
        · rintro ⟨-, htoken⟩
          obtain rfl := Option.some.inj htoken
          exact ⟨rfl, hpos, hfits⟩
        · rintro ⟨hr, -⟩
          cases hr
          exact ⟨rfl, rfl⟩
      · constructor
        · rintro ⟨-, hnone⟩
          cases hnone
        · rintro ⟨_, _, hr⟩
          cases hr
  | matched =>
      refine ⟨fun token => ?_, ⟨fun _ => ⟨_, _, rfl⟩, fun _ => ⟨rfl, rfl⟩⟩, fun _ => rfl⟩
      constructor
      · rintro ⟨-, htoken⟩
        cases htoken
      · rintro ⟨hr, -⟩
        cases hr
  | declined hsecret hmatch =>
      refine ⟨fun token => ?_, ?_, fun _ => rfl⟩
      · constructor
        · rintro ⟨hcode, -⟩
          cases hcode
        · rintro ⟨hr, -, hfits⟩
          have hlong := hsecret token hr
          omega
      · constructor
        · rintro ⟨hcode, -⟩
          cases hcode
        · rintro ⟨score, threshold, hr⟩
          exact absurd hr (hmatch score threshold)

/-- A call ends with the token set if and only if the last attempt released a password of at
most 511 bytes, which then is the token; it succeeds without a token if and only if the last
attempt matched; and otherwise it fails. A new attempt is made only if the clock, read after the
one before, showed less than the deadline; and a call still running after `fuel` attempts has
read the clock that often without reaching the deadline. -/
theorem pam_login {argv : List Bytes} {fuel : Nat} {w w' : Session} {res : Option PamCode}
    {events : List (Event pam)} (h : Call sealed flt argv fuel w res w' events)
    (hunset : w.authtok = none) :
    (∀ code, res = some code →
      (∀ token, code = .success ∧ w'.authtok = some token ↔
        (attempts events).getLast? = some (.ok (.passwordUnsealed token)) ∧
          1 ≤ token.length ∧ token.length ≤ 511) ∧
      (code = .success ∧ w'.authtok = none ↔ ∃ score threshold,
        (attempts events).getLast? = some (.ok (.verified true score threshold))) ∧
      (code ≠ .success → w'.authtok = none)) ∧
    ∃ front es, events = front ++ es ∧ attempts front = [] ∧
      ((es = [] ∧ res.isSome = true) ∨ ∃ start, readings front = [start] ∧
        Paced (start + waitSeconds argv) True es ∧
        (res = none → w'.authtok = none ∧ (readings es).length = fuel ∧
          ∀ t ∈ readings es, t < start + waitSeconds argv)) := by
  have htokens : ReleasesTokens (Answered sealed flt Token) := fun req secret => released_of_pool
  obtain ⟨front, es, hevents, hfront, hcases⟩ := exec_pamSmAuthenticate htokens h
  replace hevents : events = front ++ es := hevents
  have hattempts : attempts events = attempts es := by
    rw [hevents, attempts_append, hfront, List.nil_append]
  rcases hcases with ⟨rfl, htoken, code, rfl, hcode⟩ | ⟨start, hstart, houtcome⟩
  · replace htoken : w'.authtok = none := htoken.trans hunset
    refine ⟨fun code' hres => ?_, front, [], hevents, hfront, .inl ⟨rfl, rfl⟩⟩
    obtain rfl : code = code' := Option.some.inj hres
    rw [hattempts, htoken]
    refine ⟨fun token => ?_, ?_, fun _ => rfl⟩
    · exact ⟨fun h => absurd h.1 hcode, fun h => by cases h.1⟩
    · exact ⟨fun h => absurd h.1 hcode, fun ⟨_, _, h⟩ => by cases h⟩
  · rw [hunset] at houtcome
    refine ⟨fun code hres => ?_, front, es, hevents, hfront,
      .inr ⟨start, hstart, houtcome.paced, ?_⟩⟩
    · obtain ⟨r, hlast, hsettled⟩ := houtcome.ended code hres
      rw [hattempts, hlast]
      simpa only [Option.some.injEq] using settled_iff hsettled
    · exact houtcome.running

end Law

/-! ## Two calls -/

theorem answered_of_exec {req : Request} {resp : Response} {w v : World}
    (hreach : Reachable simulatedUnseal .none Token w) (handed : Handed Token req)
    (h : Exec (World.Step simulatedUnseal .none) (dispatch simulatedProcess req (some 0))
      w resp v) :
    Answered simulatedUnseal .none Token req resp ∧ Reachable simulatedUnseal .none Token v := by
  obtain ⟨log, hrun⟩ := interleaved_alone (.nil _ _) h
  refine ⟨⟨Unit, inferInstance, fun _ => simulatedProcess, fun _ => req, fun _ => some 0, _, w, v,
    log, (), hreach, fun _ => handed, hrun, rfl, rfl⟩, ?_⟩
  exact .served hreach (fun _ => handed) hrun

theorem handed_of_ne {req : Request} (h : ∀ u password, req ≠ .sealPassword u password) :
    Handed Token req := fun u password heq => absurd heq (h u password)

/-- What the daemon has stored before each of the five requests and after the last. -/
theorem released_worlds : ∃ (w : ℕ → World) (enrolled : Response),
    w 0 = secureOverrideWorld ∧
    Exec (World.Step simulatedUnseal .none)
      (dispatch simulatedProcess (.enroll "alice" false) (some 0)) (w 0) enrolled (w 1) ∧
    Exec (World.Step simulatedUnseal .none)
      (dispatch simulatedProcess (.sealPassword "alice" simulatedSecret) (some 0)) (w 1)
      .passwordSealed (w 2) ∧
    Exec (World.Step simulatedUnseal .none)
      (dispatch simulatedProcess (.resealUserEnvelopes "alice") (some 0)) (w 2)
      (.userEnvelopesResealed true true) (w 3) ∧
    Exec (World.Step simulatedUnseal .none)
      (dispatch simulatedProcess (.authIntent "alice" "sudo") (some 0)) (w 3)
      (.authPlan true "unseal" none) (w 4) ∧
    Exec (World.Step simulatedUnseal .none)
      (dispatch simulatedProcess (.authenticate "alice" "sudo") (some 0)) (w 4)
      (.passwordUnsealed simulatedSecret) (w 5) := by
  have hserved : ((serve simulatedScript simulatedUnseal .none 60 simulatedProcess
      [(some 0, .enroll "alice" false), (some 0, .sealPassword "alice" simulatedSecret),
        (some 0, .resealUserEnvelopes "alice"), (some 0, .authIntent "alice" "sudo"),
        (some 0, .authenticate "alice" "sudo")] secureOverrideWorld).map fun x =>
          (x.1.length, x.1.drop 1)) =
      some (5, [.passwordSealed, .userEnvelopesResealed true true, .authPlan true "unseal" none,
        .passwordUnsealed simulatedSecret]) := by
    decide +kernel
  obtain ⟨⟨resps, w₅⟩, hserve, heq⟩ := Option.map_eq_some_iff.1 hserved
  obtain ⟨hlength, hresps⟩ := Prod.mk.inj heq
  cases resps with
  | nil => cases hlength
  | cons enrolled rest =>
      obtain rfl : rest = _ := hresps
      obtain ⟨w₁, henroll, hserve₁⟩ := exec_of_serve hserve
      obtain ⟨w₂, hseal, hserve₂⟩ := exec_of_serve hserve₁
      obtain ⟨w₃, hreseal, hserve₃⟩ := exec_of_serve hserve₂
      obtain ⟨w₄, hintent, hserve₄⟩ := exec_of_serve hserve₃
      obtain ⟨w₅', hauth, -⟩ := exec_of_serve hserve₄
      exact ⟨fun n => [secureOverrideWorld, w₁, w₂, w₃, w₄, w₅'].getD n w₁, enrolled, rfl, henroll,
        hseal, hreseal, hintent, hauth⟩

/-- `sudo` is answered with the password; at the lock screen the daemon cannot be reached after
the pre-flight. -/
def slowDaemon : Request → Except LinuxHelloError Response
  | .authIntent "alice" "kde" => .ok (.authPlan true "verify" none)
  | .authIntent "alice" "sudo" => .ok (.authPlan true "unseal" none)
  | .authenticate "alice" "sudo" => .ok (.passwordUnsealed simulatedSecret)
  | _ => .error (.io (.other "timed out"))

def slowAnswer (service : String) (w : Session) : (o : Op) → o.Ans
  | .getUser => (.success, some (text "alice"))
  | .getService => (.success, some (text service))
  | .getAuthtok => (.success, none)
  | .setAuthtok _ => .success
  | .info _ | .syslog _ _ | .nanosleep _ => ()
  | .time => (w.now / 1000 : Nat)
  | .stack len => List.replicate len 0
  | .request req => slowDaemon req

/-- An attempt takes 999 ms. -/
def slowDelay : Op → Nat
  | .request (.authenticate _ _) => 999
  | .nanosleep millis => millis
  | _ => 0

def slowStep (service : String) (x : Session × List (Event pam)) (o : Op) :
    Option (o.Ans × Session × List (Event pam)) :=
  let r := slowAnswer service x.1 o
  let w : Session :=
    { authtok := x.1.token o r, now := x.1.now + slowDelay o, starts := x.1.started o }
  some (r, w, x.2 ++ [⟨o, r⟩])

/-- The lock screen's pre-flight on a host without an enrollment. -/
theorem answered_lockScreen : Answered simulatedUnseal .none Token (.authIntent "alice" "kde")
    (.authPlan true "verify" none) := by
  let sc : Script := { simulatedScript with text := fun _ => some "STATE=active" }
  have hrun : (sc.run simulatedUnseal .none 13
      (dispatch simulatedProcess (.authIntent "alice" "kde") (some 0)) emptyWorld).map Prod.fst =
      some (.authPlan true "verify" none) := by decide +kernel
  obtain ⟨v, hexec⟩ := sc.exec_of_run 13 hrun
  exact (answered_of_exec (.fresh fun u => rfl) (handed_of_ne fun _ _ heq => by cases heq) hexec).1

/-- `sudo` on a host with one enrollment and a sealed password. -/
theorem answered_sudo :
    Answered simulatedUnseal .none Token (.authIntent "alice" "sudo")
    (.authPlan true "unseal" none) ∧
    Answered simulatedUnseal .none Token (.authenticate "alice" "sudo")
      (.passwordUnsealed simulatedSecret) := by
  obtain ⟨w, enrolled, hfresh, henroll, hseal, hreseal, hintent, hauth⟩ := released_worlds
  have hstart : Reachable simulatedUnseal .none Token (w 0) := by
    rw [hfresh]
    exact .fresh fun u => rfl
  have hsealed : Handed Token (.sealPassword "alice" simulatedSecret) := by
    rintro u password heq -
    cases heq
    exact ⟨by decide, by decide⟩
  obtain ⟨-, h₁⟩ := answered_of_exec hstart (handed_of_ne fun _ _ heq => by cases heq) henroll
  obtain ⟨-, h₂⟩ := answered_of_exec h₁ hsealed hseal
  obtain ⟨-, h₃⟩ := answered_of_exec h₂ (handed_of_ne fun _ _ heq => by cases heq) hreseal
  obtain ⟨hplan, h₄⟩ := answered_of_exec h₃ (handed_of_ne fun _ _ heq => by cases heq) hintent
  exact ⟨hplan, (answered_of_exec h₄ (handed_of_ne fun _ _ heq => by cases heq) hauth).1⟩

private theorem slowAnswer_allowed (service : String) (w : Session) (o : Op) :
    w.allows (Answered simulatedUnseal .none Token) o (slowAnswer service w o) := by
  cases o with
  | time => rfl
  | stack len => exact List.length_replicate
  | setAuthtok token => rfl
  | request req =>
      intro resp hresp
      replace hresp : slowDaemon req = .ok resp := hresp
      unfold slowDaemon at hresp
      split at hresp
      · obtain rfl := Except.ok.inj hresp
        exact answered_lockScreen
      · obtain rfl := Except.ok.inj hresp
        exact answered_sudo.1
      · obtain rfl := Except.ok.inj hresp
        exact answered_sudo.2
      · cases hresp
  | _ => trivial

theorem slowStep_sound {service : String} {x v : Session × List (Event pam)} {o : Op} {r : o.Ans}
    (h : slowStep service x o = some (r, v)) :
    recorded (Step (Answered simulatedUnseal .none Token)) x o r v := by
  obtain ⟨rfl, rfl⟩ := Prod.mk.inj (Option.some.inj h)
  exact ⟨⟨slowAnswer_allowed service x.1 o, rfl, rfl, Nat.le_add_right _ _⟩, rfl⟩

theorem exec_slow : ∃ w' events,
    Call simulatedUnseal .none [text "wait=1"] 2 ⟨none, 0, []⟩ (some .authErr) w' events ∧
      w'.starts = [0, 1399] ∧ (readings events).head? = some 0 := by
  have hrun : (execute slowStep (pamSmAuthenticate [text "wait=1"] 2) (⟨none, 0, []⟩, [])
      (List.replicate 13 "kde")).map (fun x => (x.1, x.2.1.starts, (readings x.2.2).head?)) =
      some (some .authErr, [0, 1399], some 0) := by decide +kernel
  obtain ⟨⟨res, w', events⟩, hexec, heq⟩ := Option.map_eq_some_iff.1 hrun
  obtain ⟨rfl, heq⟩ := Prod.mk.inj heq
  obtain ⟨hstarts, hstart⟩ := Prod.mk.inj heq
  exact ⟨w', events, exec_of_execute (fun _ _ _ _ _ => slowStep_sound) hexec, hstarts, hstart⟩

private theorem exec_released : ∃ w' events,
    Call simulatedUnseal .none [] 1 ⟨none, 0, []⟩ (some .success) w' events ∧
      (attempts events).getLast? = some (.ok (.passwordUnsealed simulatedSecret)) := by
  have hrun : (execute slowStep (pamSmAuthenticate [] 1) (⟨none, 0, []⟩, [])
      (List.replicate 13 "sudo")).map (fun x => (x.1, (attempts x.2.2).getLast?.map (·.toOption))) =
      some (some .success, some (some (.passwordUnsealed simulatedSecret))) := by decide +kernel
  obtain ⟨⟨res, w', events⟩, hexec, heq⟩ := Option.map_eq_some_iff.1 hrun
  obtain ⟨rfl, hlast⟩ := Prod.mk.inj heq
  refine ⟨w', events, exec_of_execute (fun _ _ _ _ _ => slowStep_sound) hexec, ?_⟩
  obtain ⟨r, hr, hok⟩ := Option.map_eq_some_iff.1 hlast
  refine hr.trans ?_
  cases r with
  | ok resp => rw [Option.some.inj hok]
  | error e => cases hok

/-- At the lock screen the call fails, and no token is set; for `sudo` the token is the released
password. -/
theorem pam_login_slow :
    (∃ w' events, Call simulatedUnseal .none [text "wait=1"] 2 ⟨none, 0, []⟩ (some .authErr)
      w' events ∧
      w'.authtok = none) ∧
    ∃ w' events, Call simulatedUnseal .none [] 1 ⟨none, 0, []⟩ (some .success) w' events ∧
      w'.authtok = some simulatedSecret := by
  constructor
  · obtain ⟨w', events, hcall, -⟩ := exec_slow
    obtain ⟨hover, -⟩ := pam_login hcall rfl
    exact ⟨w', events, hcall, (hover .authErr rfl).2.2 (by decide)⟩
  · obtain ⟨w', events, hcall, hlast⟩ := exec_released
    obtain ⟨hover, -⟩ := pam_login hcall rfl
    exact ⟨w', events, hcall,
      (((hover .success rfl).1 simulatedSecret).2 ⟨hlast, by decide, by decide⟩).2⟩

/-- The deadline is looked at before the pause: the second attempt starts 399 ms after it. -/
theorem attempt_after_deadline :
    ¬ ∀ (sealed : SealedEnvelope → Option Bytes) (flt : Faults) (argv : List Bytes) (fuel : Nat)
      (w w' : Session) (res : Option PamCode) (events : List (Event pam)) (start : Int),
      Call sealed flt argv fuel w res w' events → w.authtok = none → w.starts = [] →
      (readings events).head? = some start →
      ∀ t ∈ w'.starts.tail, (t : Int) ≤ 1000 * (start + waitSeconds argv) := by
  intro hall
  obtain ⟨w', events, hcall, hstarts, hstart⟩ := exec_slow
  have hwait : waitSeconds [text "wait=1"] = 1 := by decide +kernel
  have hlate := hall _ _ _ _ _ _ _ _ _ hcall rfl rfl hstart 1399 (by rw [hstarts]; decide)
  rw [hwait] at hlate
  exact absurd hlate (by decide)

end Linhello.Pam
