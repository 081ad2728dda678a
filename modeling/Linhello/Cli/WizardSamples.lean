import Linhello.Cli.WizardRuns
/-!
# The samples of the wizard

A guided enrollment takes its samples one by one, each after a run of good polls; a
calibration takes a few scores and recommends a threshold. What the wizard enrolls and
writes is traced to the answers it got.
-/

namespace Linhello.Cli.Wizard

open Common Effect Liveness

/-! ## Enrollments -/

/-- The number of good polls in a row since the last capture. -/
def steadyStep (n : Nat) : Event console → Nat
  | ⟨.send .positionSample, answer⟩ => if good (reported answer) then n + 1 else 0
  | ⟨.send (.enroll _ _), _⟩ => 0
  | _ => n

def steady (ts : List Round) : Nat := (ts.flatMap (·.heard)).foldl steadyStep 0

def isEnrolled : Event console → Bool
  | ⟨.send (.enroll _ _), .ok (.enrolled _)⟩ => true
  | _ => false

def startsEnroll (t : Round) : Bool :=
  canStart t.before.enroll && decide (t.after.enroll = .framing 0 0)

/-- The number of samples taken since the guided enrollment was started. -/
def takenStep (n : Nat) (t : Round) : Nat :=
  if startsEnroll t then 0 else n + t.heard.countP isEnrolled

def taken (ts : List Round) : Nat := ts.foldl takenStep 0

/-- The enrollment state fits the samples taken and the polls since. -/
def Fits (taken steady : Nat) : EnrollState → Prop
  | .framing captured streak =>
      captured = taken ∧ captured < ENROLL_TARGET ∧ streak < ENROLL_STREAK ∧ streak ≤ steady
  | .countdown captured left =>
      captured = taken ∧ captured < ENROLL_TARGET ∧ 1 ≤ left ∧ left ≤ 3 ∧
        ENROLL_STREAK + 3 ≤ steady + left
  | .done captured => captured = taken ∧ captured = ENROLL_TARGET
  | _ => True

section Enrollments

variable {fl : FloatLib} {start a b : App} {i : Act} {es : List (Event console)} {c : Core}
  {ts pre post : List Round} {t : Round}

theorem steady_concat : steady (ts ++ [⟨a, i, es, b⟩]) = es.foldl steadyStep (steady ts) := by
  simp [steady]

theorem taken_concat (h : canStart a.enroll = false) :
    taken (ts ++ [⟨a, i, es, b⟩]) = taken ts + es.countP isEnrolled := by
  simp [taken, takenStep, startsEnroll, h]

private theorem taken_same (h : b.enroll = a.enroll) (hcount : es.countP isEnrolled = 0) :
    taken (ts ++ [⟨a, i, es, b⟩]) = taken ts := by
  have hstarts : startsEnroll ⟨a, i, es, b⟩ = false := by
    unfold startsEnroll
    rw [h]
    cases a.enroll <;> simp [canStart]
  simp [taken, takenStep, hstarts, hcount]

theorem fits_step (h : Move fl a i es c) (hc : b.core = c)
    (ha : Fits (taken ts) (steady ts) a.enroll) :
    Fits (taken (ts ++ [⟨a, i, es, b⟩])) (steady (ts ++ [⟨a, i, es, b⟩])) b.enroll := by
  have hgood {answer : Ans (.send .positionSample)} (fine : good (reported answer) = true) :
      steadyStep (steady ts) ⟨.send .positionSample, answer⟩ = steady ts + 1 := if_pos fine
  have henroll : b.enroll = c.enroll := congrArg Core.enroll hc
  rw [steady_concat]
  cases h with
  | startEnroll here idle start =>
      have hb : b.enroll = .framing 0 0 := henroll
      simp [Fits, hb, taken, takenStep, startsEnroll, idle, ENROLL_TARGET, ENROLL_STREAK]
  | @framed second captured streak answer here state fine =>
      have hb : b.enroll = if streak + 1 ≥ ENROLL_STREAK then .countdown captured 3
        else .framing captured (streak + 1) := henroll
      rw [state] at ha
      obtain ⟨hcaptured, hmore, hstreak, hsteady⟩ := ha
      rw [hb, taken_concat (by rw [state]; rfl), List.foldl_cons, List.foldl_nil, hgood fine]
      split
      next hfull => exact ⟨hcaptured, hmore, by omega, le_rfl, by omega⟩
      next hshort => exact ⟨hcaptured, hmore, by omega, by omega⟩
  | @countedDown second captured left answer here state fine more =>
      have hb : b.enroll = .countdown captured (left - 1) := henroll
      rw [state] at ha
      obtain ⟨hcaptured, hmore, hleft, hthree, hsteady⟩ := ha
      rw [hb, taken_concat (by rw [state]; rfl), List.foldl_cons, List.foldl_nil, hgood fine]
      exact ⟨hcaptured, hmore, by omega, by omega, by omega⟩
  | @lostFrame second captured answer here state lost =>
      have hb : b.enroll = .framing captured 0 := henroll
      have hcaptured : captured = taken ts ∧ captured < ENROLL_TARGET := by
        rcases state with ⟨streak, state⟩ | ⟨left, state⟩
        · rw [state] at ha
          exact ⟨ha.1, ha.2.1⟩
        · rw [state] at ha
          exact ⟨ha.1, ha.2.1⟩
      have hopen : canStart a.enroll = false := by
        rcases state with ⟨streak, state⟩ | ⟨left, state⟩ <;> rw [state] <;> rfl
      rw [hb, taken_concat hopen]
      exact ⟨hcaptured.1, hcaptured.2, by decide, Nat.zero_le _⟩
  | @capture second captured left e polled answer here state fine last after =>
      have hb : b.enroll = e := henroll
      rw [state] at ha
      obtain ⟨hcaptured, hmore, hleft, hthree, hsteady⟩ := ha
      rw [hb, taken_concat (by rw [state]; rfl)]
      rcases answer with err | r
      · obtain ⟨msg, rfl⟩ := after
        trivial
      · cases r
        case enrolled n =>
          have hcount : List.countP isEnrolled [⟨.send .positionSample, polled⟩,
            ⟨.send (.enroll a.activeProfile false), .ok (.enrolled n)⟩] = 1 := rfl
          rw [hcount, after]
          split
          next hfull => exact ⟨by omega, by unfold ENROLL_TARGET at *; omega⟩
          next hroom => exact ⟨by omega, by omega, by decide, Nat.zero_le _⟩
        all_goals
          obtain ⟨msg, rfl⟩ := after
          trivial
  | _ =>
      rw [henroll, taken_same henroll rfl]
      exact ha

theorem Move.captures (h : Move fl a i es c) {user : String} {reset : Bool}
    {answer : Ans (.send (.enroll user reset))}
    (hdone : (⟨.send (.enroll user reset), answer⟩ : Event console) ∈ es) :
    a.screen = .enroll ∧ user = a.activeProfile ∧ reset = false ∧
      (∃ captured left, a.enroll = .countdown captured left ∧ left ≤ 1) ∧
      ∃ polled, es = [⟨.send .positionSample, polled⟩, ⟨.send (.enroll user reset), answer⟩] ∧
        good (reported polled) = true := by
  cases h with
  | @capture second captured left e polled answer' here state fine last after =>
      rcases List.mem_cons.1 hdone with hpoll | hcapture
      · cases hpoll
      · cases List.mem_singleton.1 hcapture
        exact ⟨here, rfl, rfl, ⟨captured, left, state, last⟩, polled, rfl, fine⟩
  | _ => simp at hdone

theorem fits_run (hstart : Fresh start) (hrun : Run fl start ts a) :
    Fits (taken ts) (steady ts) a.enroll := by
  apply hrun.history (P := fun ts a => Fits (taken ts) (steady ts) a.enroll) (act_moves fl)
  · obtain ⟨user, huser⟩ := hstart.core
    have hidle : start.enroll = .idle := congrArg Core.enroll huser
    rw [hidle]
    trivial
  · intro ts t h ha
    exact fits_step h.1 rfl ha

/-- In a run of the event loop: the streak that is shown has been polled, and so have the polls
before a countdown. -/
theorem polled_of_rounds {rounds : List (Turn console (Input × Bool) App)} (hstart : Fresh start)
    (hrun : Session loud (fun i => round fl i.1 i.2) start rounds a) :
    (∀ captured streak, a.enroll = .framing captured streak →
      streak ≤ (rounds.flatMap (·.heard)).foldl steadyStep 0) ∧
    ∀ captured left, a.enroll = .countdown captured left →
      ENROLL_STREAK + 3 ≤ (rounds.flatMap (·.heard)).foldl steadyStep 0 + left := by
  obtain ⟨ts, hacts, hheard⟩ := run_of_rounds hrun
  have hfits := fits_run hstart hacts
  rw [← hheard]
  constructor
  · intro captured streak hframing
    rw [hframing] at hfits
    exact hfits.2.2.2
  · intro captured left hcountdown
    rw [hcountdown] at hfits
    exact hfits.2.2.2.2

/-- The wizard enrolls the active profile, adding a sample, after six good polls in a row; a
guided enrollment takes five samples. -/
theorem enrolled_steadily (hstart : Fresh start) (hrun : Run fl start ts a) :
    (∀ n, a.enroll = .done n → n = ENROLL_TARGET ∧ taken ts = ENROLL_TARGET) ∧
    ∀ pre t post user reset (answer : Ans (.send (.enroll user reset))), ts = pre ++ t :: post →
      (⟨.send (.enroll user reset), answer⟩ : Event console) ∈ t.heard →
      t.before.screen = .enroll ∧ user = t.before.activeProfile ∧ reset = false ∧
      taken pre < ENROLL_TARGET ∧ ENROLL_STREAK + 2 ≤ steady pre ∧
      ∃ polled, t.heard = [⟨.send .positionSample, polled⟩, ⟨.send (.enroll user reset), answer⟩] ∧
        good (reported polled) = true := by
  constructor
  · intro n hn
    have hfits := fits_run hstart hrun
    rw [hn] at hfits
    exact ⟨hfits.2, hfits.1 ▸ hfits.2⟩
  · intro pre t post user reset answer hts hdone
    obtain ⟨hscreen, huser, hreset, ⟨captured, left, state, hlast⟩, hpolled⟩ :=
      (hrun.moves (act_moves fl) t (by simp [hts])).1.captures hdone
    have hfits := fits_run hstart (hrun.upTo hts)
    rw [state] at hfits
    obtain ⟨hcaptured, hmore, -, -, hsteady⟩ := hfits
    exact ⟨hscreen, huser, hreset, hcaptured ▸ hmore, by omega, hpolled⟩

def enrolling : List Act := forward 5 ++ press .enter :: List.replicate 30 (.tick false)

private theorem exists_captured (h : es.any isEnrolled = true) :
    ∃ (user : String) (reset : Bool) (answer : Ans (.send (.enroll user reset))),
      (⟨.send (.enroll user reset), answer⟩ : Event console) ∈ es := by
  obtain ⟨e, hmem, henrolled⟩ := List.any_eq_true.1 h
  unfold isEnrolled at henrolled
  split at henrolled
  next user reset taken => exact ⟨user, reset, .ok (.enrolled taken), hmem⟩
  next => cases henrolled

/-- The second sample of the five: a capture in a later turn. -/
theorem enrolled_steadily_five : taken (rehearsal none enrolling).1 = ENROLL_TARGET ∧
    ∃ pre t post, (rehearsal none enrolling).1 = pre ++ t :: post ∧ t.heard.any isEnrolled = true ∧
      t.before.screen = .enroll ∧ 0 < taken pre ∧ taken pre < ENROLL_TARGET ∧
      ENROLL_STREAK + 2 ≤ steady pre := by
  have hlaw := enrolled_steadily fresh_opened (run_rehearsal none enrolling)
  refine ⟨(hlaw.1 5 (by decide +kernel)).2, ?_⟩
  obtain ⟨t, post, hsplit⟩ : ∃ t post, (rehearsal none enrolling).1.drop 17 = t :: post :=
    List.exists_cons_of_ne_nil (List.ne_nil_of_length_pos (by decide +kernel))
  have hts : (rehearsal none enrolling).1 = (rehearsal none enrolling).1.take 17 ++ t :: post := by
    rw [← hsplit, List.take_append_drop]
  have hany : ((rehearsal none enrolling).1.drop 17).head?.any
      (fun t => t.heard.any isEnrolled) = true := by decide +kernel
  rw [hsplit, List.head?_cons, Option.any_some] at hany
  obtain ⟨user, reset, answer, hmem⟩ := exists_captured hany
  obtain ⟨hscreen, -, -, hmore, hsteady, -⟩ := hlaw.2 _ t post user reset answer hts hmem
  exact ⟨_, t, post, hts, hany, hscreen, by decide +kernel, hmore, hsteady⟩

end Enrollments

/-! ## Calibration -/

def isSampling : CalState → Bool
  | .sampling _ _ => true
  | _ => false

def startsCalibration (t : Round) : Bool := !isSampling t.before.cal && isSampling t.after.cal

def isVerify : Event console → Bool
  | ⟨.send (.verify _), _⟩ => true
  | _ => false

/-- The number of verifications since the calibration was started. -/
def askedStep (n : Nat) (t : Round) : Nat :=
  if startsCalibration t then 0 else n + t.heard.countP isVerify

def asked (ts : List Round) : Nat := ts.foldl askedStep 0

section Calibration

variable {fl : FloatLib} {start a b : App} {i : Act} {es : List (Event console)} {c : Core}
  {ts pre post : List Round} {t : Round}

end Calibration

end Linhello.Cli.Wizard
